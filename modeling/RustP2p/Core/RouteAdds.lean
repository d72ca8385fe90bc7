import RustP2p.Core.RouteIndex
import RustP2p.Core.RouteOrder

/-!
# Adding a route to a table in use

`add_route_` decides in one pass that stops at the first shorter route of the same
kind or at the first route with the key.  The lists of a table in use are sorted
by metric, and there it does not matter which of the two the pass meets first.
The rule is then the one of `rejected_iff`.

A call changes nothing when it returns `false`, and at most the routes with its
own key when it returns `true` (`others_addRoute`).  The other routes of the peer
may only change places.

The last section follows the round trip of one route.  `DEFAULT_RTT` stands for a
route that was never measured, so a call with it leaves a measurement alone.  A
round trip that is measured to be just that long reads as no measurement.
-/

namespace RustP2p

namespace RouteTable

variable {ι : Type}

/-! ## Round trips in a list -/

/-- A list has a route with key `k` and round trip `rtt`. -/
def ListedRtt (l : List TimedRoute) (k : RouteKey) (rtt : UInt32) : Prop :=
  ∃ e ∈ l, e.1.routeKey = k ∧ e.1.rtt = rtt

theorem listedRtt_append_cons {pre post : List TimedRoute} {x : Route} {time : Instant}
    {k : RouteKey} {rtt : UInt32} :
    ListedRtt (pre ++ (x, time) :: post) k rtt ↔
      ListedRtt pre k rtt ∨ (x.routeKey = k ∧ x.rtt = rtt) ∨ ListedRtt post k rtt := by
  simp only [ListedRtt, List.mem_append, List.mem_cons, or_and_right, exists_or, exists_eq_left]

theorem listedRtt_perm {l l' : List TimedRoute} (h : l'.Perm l) {k : RouteKey} {rtt : UInt32} :
    ListedRtt l' k rtt ↔ ListedRtt l k rtt := by
  simp only [ListedRtt, h.mem_iff]

/-- The call removes the route of the peer with the key. -/
def Removes (p : ι) (k : RouteKey) (op : RouteOp ι) : Prop :=
  op = .removeRoute p k ∨ op = .removeAll p

/-- The call brings a measured round trip for the route of the peer with the key. -/
def Measures (p : ι) (k : RouteKey) : RouteOp ι → Prop
  | .addRoute _ id r => id = p ∧ r.routeKey = k ∧ r.rtt ≠ DEFAULT_RTT
  | .updateRtt id key _ => id = p ∧ key = k
  | _ => False

/-- A call that neither removes a route nor measures it keeps its round trip. -/
theorem Change.listedRtt {policy : LoadBalance} {p : ι} {op : RouteOp ι} {l l' : List TimedRoute}
    (h : Change policy p op l l') {k : RouteKey} {rtt : UInt32} (hl : ListedRtt l k rtt)
    (hremove : ¬ Removes p k op) (hmeasure : ¬ Measures p k op) : ListedRtt l' k rtt := by
  cases h with
  | same => exact hl
  | touched =>
      rw [listedRtt_append_cons] at hl ⊢
      exact hl
  | @updated now r x x' pre post time key unbeaten upgrade changed =>
      subst changed
      rw [listedRtt_append_cons] at hl
      rw [listedRtt_perm (reorder_perm _ _ _), listedRtt_append_cons]
      rcases hl with hpre | ⟨hk, hrtt⟩ | hpost
      · exact Or.inl hpre
      · -- The route comes with the sentinel, so the old round trip stays.
        have hdefault : ¬ r.rtt ≠ DEFAULT_RTT := fun hne => hmeasure ⟨rfl, key ▸ hk, hne⟩
        exact Or.inr (Or.inl ⟨hk, by rw [if_neg hdefault, hrtt]⟩)
      · exact Or.inr (Or.inr hpost)
  | pushed offers passed =>
      obtain ⟨e, he, hk, hrtt⟩ := hl
      rw [listedRtt_perm (reorder_perm _ _ _)]
      exact ⟨e, List.mem_append_left _ he, hk, hrtt⟩
  | @measured x rtt' pre post time =>
      have hlisted : ListedRtt (pre ++ ({ x with rtt := rtt' }, time) :: post) k rtt := by
        rw [listedRtt_append_cons] at hl ⊢
        rcases hl with hpre | ⟨hk, -⟩ | hpost
        · exact Or.inl hpre
        · exact absurd ⟨rfl, hk⟩ hmeasure
        · exact Or.inr (Or.inr hpost)
      exact (listedRtt_perm (resort_perm _ _)).mpr hlisted
  | @removed key l =>
      obtain ⟨e, he, hk, hrtt⟩ := hl
      have hkey : e.1.routeKey ≠ key := by
        rintro rfl
        exact hremove (Or.inl (by rw [hk]))
      exact ⟨e, List.mem_filter.mpr ⟨he, by simpa using hkey⟩, hk, hrtt⟩
  | cleared => exact absurd (Or.inr rfl) hremove

variable [DecidableEq ι]

/-! ## The answer of a call -/

/-- A call that returns `false` leaves the table as it was. -/
theorem eq_of_addRoute_false {t : RouteTable ι} {now : Instant} {id : ι} {r : Route}
    {onlyIfAbsent : Bool} (h : (t.addRoute_ now id r onlyIfAbsent).1 = false) :
    (t.addRoute_ now id r onlyIfAbsent).2 = t := by
  simp only [addRoute_] at h ⊢
  split at h
  next => cases h
  next =>
    split at h
    next => rfl
    next => cases h
    next => cases h
    next => cases h

/-- A call that returns `true` leaves the peer with a route of the key. -/
theorem mem_keys_of_true {t : RouteTable ι} {now : Instant} {id : ι} {r : Route}
    {onlyIfAbsent : Bool} (h : (t.addRoute_ now id r onlyIfAbsent).1 = true) :
    r.routeKey ∈ keys ((t.addRoute_ now id r onlyIfAbsent).2.timedRoutes id) := by
  have reordered (policy : LoadBalance) (index : Nat) (l : List TimedRoute)
      (hl : r.routeKey ∈ keys l) : r.routeKey ∈ keys (reorder policy index l) :=
    (keys_perm (reorder_perm policy index l)).mem_iff.mpr hl
  simp only [addRoute_] at h ⊢
  split
  next routes htouch =>
    cases onlyIfAbsent with
    | false => cases htouch
    | true =>
        obtain ⟨pre, x, time, post, -, key, rfl⟩ := touch_eq_some htouch
        rw [timedRoutes_setRoutes, if_pos rfl, keys_append_cons, key]
        exact List.mem_append_right _ (.head _)
  next htouch =>
    simp only [htouch] at h
    have hscan : Scanned t.loadBalance onlyIfAbsent now r (t.timedRoutes id)
      (scan t.loadBalance onlyIfAbsent now r (t.timedRoutes id)) := scanned_scan
    generalize t.timedRoutes id = l at hscan h
    generalize scan t.loadBalance onlyIfAbsent now r l = outcome at hscan h
    cases hscan with
    | rejected => cases h
    | kept passed key known =>
        rw [timedRoutes_setRoutes, if_pos rfl, keys_append_cons, key]
        exact List.mem_append_right _ (.head _)
    | updated passed key unbeaten upgrade changed =>
        subst changed
        rw [timedRoutes_setRoutes, if_pos rfl]
        refine reordered _ _ _ ?_
        rw [keys_append_cons, ← key]
        exact List.mem_append_right _ (.head _)
    | absent passed =>
        rw [timedRoutes_setRoutes, if_pos rfl]
        refine reordered _ _ _ ?_
        rw [keys_append_cons]
        exact List.mem_append_right _ (.head _)

/-- `add_route` returns `false` when the scan rejects the route. -/
theorem addRoute_eq_false_iff {t : RouteTable ι} {now : Instant} {id : ι} {r : Route} :
    (t.addRoute now id r).1 = false ↔
      scan t.loadBalance false now r (t.timedRoutes id) = .rejected := by
  simp only [addRoute, addRoute_, Bool.false_eq_true, if_false]
  split
  next h => simp [h]
  next h => simp [h]
  next h => simp [h]
  next h => simp [h]

/-! ## The rule of rejection -/

/-- A direct route does not stand in the way of a longer one. -/
theorem metric_ne_zero_of_beaten {x r : Route} (hlt : x.metric < r.metric)
    (hkind : x.isDirect = r.isDirect) : x.metric ≠ 0 := by
  intro hzero
  have hdirect : r.isDirect = true := by rw [← hkind, Route.isDirect_iff, hzero]
  exact relay_of_lt hlt (Route.isDirect_iff.mp hdirect)

/-- The scan of a list sorted by metric rejects a route exactly if a shorter one of
its kind is listed and its key is not listed as direct. -/
theorem scan_rejects_iff {policy : LoadBalance} {now : Instant} {r : Route} {l : List TimedRoute}
    (hpolicy : policy ≠ .lowestLatency)
    (hl : l.Pairwise fun x y => x.1.metric ≤ y.1.metric) :
    scan policy false now r l = .rejected ↔
      (∃ e ∈ l, e.1.isDirect = r.isDirect ∧ e.1.metric < r.metric) ∧ ¬ Listed l r.routeKey 0 := by
  have hscan : Scanned policy false now r l (scan policy false now r l) := scanned_scan
  generalize scan policy false now r l = outcome at hscan
  -- A shorter route of the same kind that the scan went on past.
  have passes {x : Route} (hx : Passes policy r x) (hkind : x.isDirect = r.isDirect)
      (hlt : x.metric < r.metric) : False := hx.1 ⟨hlt, hpolicy, hkind⟩
  cases hscan with
  | @rejected pre post x time passed beaten =>
      obtain ⟨hlt, -, hkind⟩ := beaten
      have hx : x.metric ≠ 0 := metric_ne_zero_of_beaten hlt hkind
      simp only [true_iff]
      refine ⟨⟨(x, time), List.mem_append_right _ (.head _), hkind, hlt⟩, ?_⟩
      rw [listed_append, listed_cons]
      intro hlisted
      rcases hlisted with ⟨e, he, hkey, -⟩ | ⟨-, hzero⟩ | ⟨e, he, -, hzero⟩
      · exact (passed e he).2 hkey
      · exact hx hzero
      · -- What is behind `x` is no shorter than `x`.
        have hle := (List.pairwise_cons.mp (List.pairwise_append.mp hl).2.1).1 e he
        rw [hzero] at hle
        exact hx (UInt8.le_zero_iff.mp hle)
  | @kept pre post x time passed key known =>
      have hx : x.metric = 0 := by
        rcases known with honly | ⟨hzero, -⟩
        · cases honly
        · exact hzero
      simp only [reduceCtorEq, false_iff, not_and, not_not]
      intro _
      rw [listed_append, listed_cons]
      exact Or.inr (Or.inl ⟨key, hx⟩)
  | @updated pre post x x' time passed key unbeaten upgrade changed =>
      simp only [reduceCtorEq, false_iff, not_and]
      intro hbeaten
      obtain ⟨e, he, hkind, hlt⟩ := hbeaten
      have hrelay := relay_of_lt hlt
      rcases List.mem_append.mp he with he | he
      · exact (passes (passed e he) hkind hlt).elim
      · rcases List.mem_cons.mp he with rfl | he
        · exact absurd ⟨hlt, hpolicy, hkind⟩ unbeaten
        · -- The route with the key is no longer than `e`, and not direct either.
          have hle := (List.pairwise_cons.mp (List.pairwise_append.mp hl).2.1).1 e he
          have hx : x.metric ≠ 0 := fun hzero => hrelay (upgrade hzero)
          refine absurd ⟨UInt8.lt_of_le_of_lt hle hlt, hpolicy, ?_⟩ unbeaten
          simp [Route.isDirect, hx, hrelay]
  | absent passed =>
      simp only [reduceCtorEq, false_iff, not_and]
      intro hbeaten
      obtain ⟨e, he, hkind, hlt⟩ := hbeaten
      exact (passes (passed e he) hkind hlt).elim

/-- Under the fewest hops and round robin `add_route` rejects a route exactly if the
peer has a shorter one of its kind, and does not have its key as a direct route.
A route that is accepted is in the list. -/
theorem rejected_iff (policy : LoadBalance)
    (hpolicy : policy = .minHopLowestLatency ∨ policy = .roundRobin) (ops : List (RouteOp ι))
    (now : Instant) (id : ι) (r : Route) :
    let t := (new policy : RouteTable ι).runOps ops
    ((t.addRoute now id r).1 = false ↔
        (∃ x ∈ t.route id, x.isDirect = r.isDirect ∧ x.metric < r.metric) ∧
          ¬ t.Has id r.routeKey 0) ∧
      ((t.addRoute now id r).1 = true →
        r.routeKey ∈ ((t.addRoute now id r).2.route id).map Route.routeKey) := by
  intro t
  have hlb : t.loadBalance = policy := loadBalance_runOps _ ops
  have hsorted : (t.timedRoutes id).Pairwise fun x y => x.1.metric ≤ y.1.metric := by
    have hpairwise : (t.route id).Pairwise (policyLe policy) := pairwise_runOps policy ops id
    rw [route, List.pairwise_map] at hpairwise
    rcases hpolicy with rfl | rfl
    · exact hpairwise
    · exact hpairwise
  have hlatency : policy ≠ .lowestLatency := by rcases hpolicy with rfl | rfl <;> decide
  constructor
  · rw [addRoute_eq_false_iff, hlb, scan_rejects_iff hlatency hsorted, has_iff_listed]
    simp only [route, List.mem_map, exists_exists_and_eq_and]
  · intro htrue
    rw [route, List.map_map]
    exact mem_keys_of_true htrue

theorem rejected_iff_relay :
    let t := (new .roundRobin : RouteTable Nat).runOps [.addRoute 0 1 ⟨pathOne, 1, 9999⟩]
    ((t.addRoute 1 1 ⟨pathTwo, 2, 9999⟩).1 = false ↔
        (∃ x ∈ t.route 1, x.isDirect = Route.isDirect ⟨pathTwo, 2, 9999⟩ ∧ x.metric < 2) ∧
          ¬ t.Has 1 pathTwo 0) ∧
      ((t.addRoute 1 1 ⟨pathTwo, 2, 9999⟩).1 = true →
        pathTwo ∈ ((t.addRoute 1 1 ⟨pathTwo, 2, 9999⟩).2.route 1).map Route.routeKey) :=
  rejected_iff .roundRobin (Or.inr rfl) [.addRoute 0 1 ⟨pathOne, 1, 9999⟩] 1 1 ⟨pathTwo, 2, 9999⟩

/-! ## What a call leaves alone -/

theorem get_setRoutes_of_ne {t : RouteTable ι} {id q : ι} {routes : List TimedRoute}
    (hq : q ≠ id) : (t.setRoutes id routes).routeTable.get q = t.routeTable.get q := by
  simp only [setRoutes, DashMap.get_insert, if_neg hq]

/-- The entries of the other peers, counters included. -/
theorem get_addRoute_of_ne {t : RouteTable ι} {now : Instant} {id q : ι} {r : Route}
    {onlyIfAbsent : Bool} (hq : q ≠ id) :
    (t.addRoute_ now id r onlyIfAbsent).2.routeTable.get q = t.routeTable.get q := by
  have hadded := added_addRoute_ t now id r onlyIfAbsent
  generalize (t.addRoute_ now id r onlyIfAbsent).2 = t' at hadded
  cases hadded with
  | rejected => rfl
  | touched => exact get_setRoutes_of_ne hq
  | updated => exact get_setRoutes_of_ne hq
  | pushed => exact get_setRoutes_of_ne hq

/-- The routes of a list with another key, with their read times. -/
def others (key : RouteKey) (l : List TimedRoute) : List TimedRoute :=
  l.filter fun e => e.1.routeKey ≠ key

theorem others_append_cons {key : RouteKey} {pre post : List TimedRoute} {e : TimedRoute}
    (he : e.1.routeKey = key) : others key (pre ++ e :: post) = others key (pre ++ post) := by
  simp only [others, List.filter_append, ne_eq, he, not_true_eq_false, decide_false,
    Bool.false_eq_true, not_false_eq_true, List.filter_cons_of_neg]

theorem others_perm {key : RouteKey} {l l' : List TimedRoute} (h : l'.Perm l) :
    (others key l').Perm (others key l) := h.filter _

/-- The routes of the peer with another key keep their metric, round trip and read
time. -/
theorem others_addRoute (t : RouteTable ι) (now : Instant) (id : ι) (r : Route)
    (onlyIfAbsent : Bool) :
    (others r.routeKey ((t.addRoute_ now id r onlyIfAbsent).2.timedRoutes id)).Perm
      (others r.routeKey (t.timedRoutes id)) := by
  have hadded := added_addRoute_ t now id r onlyIfAbsent
  generalize (t.addRoute_ now id r onlyIfAbsent).2 = t' at hadded
  cases hadded with
  | rejected => exact List.Perm.refl _
  | touched list key =>
      rw [timedRoutes_setRoutes, if_pos rfl, list, others_append_cons key, others_append_cons key]
  | updated list key overwrites unbeaten upgrade changed =>
      subst changed
      rw [timedRoutes_setRoutes, if_pos rfl, list]
      refine (others_perm (reorder_perm _ _ _)).trans ?_
      rw [others_append_cons key, others_append_cons key]
  | pushed =>
      rw [timedRoutes_setRoutes, if_pos rfl]
      refine (others_perm (reorder_perm _ _ _)).trans ?_
      rw [others_append_cons (e := (r, now)) rfl, List.append_nil]

/-- A call with a route changes nothing when it returns `false`.  When it returns
`true` the peer has one route with the key.  Other peers, the other keys of the
peer and the other keys of the index are as before in either case. -/
theorem addRoute_local (policy : LoadBalance) (ops : List (RouteOp ι)) (now : Instant) (id : ι)
    (r : Route) (onlyIfAbsent : Bool) :
    let t := (new policy : RouteTable ι).runOps ops
    let result := t.addRoute_ now id r onlyIfAbsent
    (result.1 = false → result.2 = t) ∧
      (result.1 = true → ((result.2.route id).map Route.routeKey).count r.routeKey = 1) ∧
      (∀ q, q ≠ id → result.2.routeTable.get q = t.routeTable.get q) ∧
      (others r.routeKey (result.2.timedRoutes id)).Perm (others r.routeKey (t.timedRoutes id)) ∧
      ∀ k, k ≠ r.routeKey → result.2.getIdByRouteKey k = t.getIdByRouteKey k := by
  intro t result
  refine ⟨eq_of_addRoute_false, ?_, fun q hq => get_addRoute_of_ne hq,
    others_addRoute t now id r onlyIfAbsent, ?_⟩
  · intro htrue
    -- The call is one more of the history, so the keys are still distinct.
    have hnodup : (keys (result.2.timedRoutes id)).Nodup := by
      have hchange : Change t.loadBalance id
          (if onlyIfAbsent then .addRouteIfAbsent now id r else .addRoute now id r)
          (t.timedRoutes id) (result.2.timedRoutes id) := by
        cases onlyIfAbsent with
        | false => exact change_addRoute t now id r id
        | true => exact change_addRouteIfAbsent t now id r id
      exact hchange.nodup_keys (nodup_keys_runOps policy ops id)
    rw [route, List.map_map]
    exact List.count_eq_one_of_mem hnodup (mem_keys_of_true htrue)
  · intro k hk
    rcases index_addRoute_ t now id r onlyIfAbsent k with ⟨heq, -⟩ | ⟨-, hsame⟩
    · exact absurd heq hk
    · exact hsame

/-! ## A measured round trip -/

instance (p : ι) (k : RouteKey) (op : RouteOp ι) : Decidable (Removes p k op) :=
  inferInstanceAs (Decidable (_ ∨ _))

instance (p : ι) (k : RouteKey) : (op : RouteOp ι) → Decidable (Measures p k op)
  | .addRoute _ _ _ => inferInstanceAs (Decidable (_ ∧ _))
  | .updateRtt _ _ _ => inferInstanceAs (Decidable (_ ∧ _))
  | .addRouteIfAbsent _ _ _ => isFalse id
  | .updateReadTime _ _ _ => isFalse id
  | .getRouteById _ => isFalse id
  | .removeRoute _ _ => isFalse id
  | .removeAll _ => isFalse id

/-- `Change.listedRtt` over a history. -/
theorem listedRtt_runOps {t : RouteTable ι} {p : ι} {k : RouteKey} {rtt : UInt32}
    (h : ListedRtt (t.timedRoutes p) k rtt) {ops : List (RouteOp ι)}
    (hops : ∀ op ∈ ops, ¬ Removes p k op ∧ ¬ Measures p k op) :
    ListedRtt ((t.runOps ops).timedRoutes p) k rtt := by
  induction ops generalizing t with
  | nil => exact h
  | cons op ops ih =>
      obtain ⟨hop, hops⟩ := List.forall_mem_cons.mp hops
      exact ih ((change_apply t op p).listedRtt h hop.1 hop.2) hops

/-- `update_rtt` writes the round trip of a route the peer has. -/
theorem listedRtt_updateRtt {t : RouteTable ι} {p : ι} {k : RouteKey} (rtt : UInt32)
    (h : t.Knows p k) : ListedRtt ((t.updateRtt p k rtt).timedRoutes p) k rtt := by
  obtain ⟨m, hm⟩ := h
  obtain ⟨e, he, hk, -⟩ := has_iff_listed.mp hm
  simp only [updateRtt]
  cases hmeasure : measure k rtt (t.timedRoutes p) with
  | none =>
      rw [measure_eq_none] at hmeasure
      exact absurd hk (hmeasure e he)
  | some routes =>
      obtain ⟨pre, x, time, post, -, hx, rfl⟩ := measure_eq_some hmeasure
      have hlisted : ListedRtt (pre ++ ({ x with rtt := rtt }, time) :: post) k rtt := by
        rw [listedRtt_append_cons]
        exact Or.inr (Or.inl ⟨hx, rfl⟩)
      rw [timedRoutes_setRoutes, if_pos rfl]
      exact (listedRtt_perm (resort_perm _ _)).mpr hlisted

/-- It writes no other round trip. -/
theorem listedRtt_of_updateRtt {t : RouteTable ι} {id p : ι} {key k : RouteKey} {v rtt : UInt32}
    (h : ListedRtt ((t.updateRtt id key v).timedRoutes p) k rtt) :
    ListedRtt (t.timedRoutes p) k rtt ∨ t.Knows id key ∧ p = id ∧ k = key ∧ rtt = v := by
  simp only [updateRtt] at h
  split at h
  next routes hmeasure =>
    obtain ⟨pre, x, time, post, hlist, hx, rfl⟩ := measure_eq_some hmeasure
    rw [timedRoutes_setRoutes] at h
    split at h
    next hp =>
      have hlisted : ListedRtt (pre ++ ({ x with rtt := v }, time) :: post) k rtt :=
        (listedRtt_perm (resort_perm _ _)).mp h
      rw [listedRtt_append_cons] at hlisted
      rw [hp, hlist, listedRtt_append_cons]
      rcases hlisted with hpre | ⟨hk, hrtt⟩ | hpost
      · exact Or.inl (Or.inl hpre)
      · exact Or.inr ⟨hx ▸ knows_of_list hlist, rfl, hk.symm.trans hx, hrtt.symm⟩
      · exact Or.inl (Or.inr (Or.inr hpost))
    next => exact Or.inl h
  next => exact Or.inl h

/-- `update_read_time` writes no round trip. -/
theorem listedRtt_updateReadTime {t : RouteTable ι} {now : Instant} {id p : ι} {key k : RouteKey}
    {rtt : UInt32} :
    ListedRtt ((t.updateReadTime now id key).timedRoutes p) k rtt ↔
      ListedRtt (t.timedRoutes p) k rtt := by
  simp only [updateReadTime]
  split
  next routes htouch =>
    obtain ⟨pre, x, time, post, hlist, -, rfl⟩ := touch_eq_some htouch
    rw [timedRoutes_setRoutes]
    split
    next hp => rw [hp, hlist, listedRtt_append_cons, listedRtt_append_cons]
    next => exact Iff.rfl
  next => exact Iff.rfl

/-- The route that was measured reports the measurement after every later history that
neither removes nor measures it, exactly if it is not `DEFAULT_RTT`. -/
theorem measured_rtt_iff (policy : LoadBalance) (ops ops' : List (RouteOp ι)) (p : ι)
    (k : RouteKey) (rtt : UInt32) (h : ((new policy : RouteTable ι).runOps ops).Knows p k)
    (hops' : ∀ op ∈ ops', ¬ Removes p k op ∧ ¬ Measures p k op) :
    ∃ x, (∀ y, y ∈ ((new policy : RouteTable ι).runOps
        (ops ++ .updateRtt p k rtt :: ops')).route p ∧ y.routeKey = k ↔ y = x) ∧
      (x.measuredRtt = some rtt ↔ rtt ≠ DEFAULT_RTT) := by
  have hnodup := nodup_keys_runOps policy (ops ++ .updateRtt p k rtt :: ops') p
  have hlisted := listedRtt_runOps (listedRtt_updateRtt rtt h) hops'
  rw [runOps_append] at hnodup ⊢
  obtain ⟨e, he, hk, hrtt⟩ := hlisted
  refine ⟨e.1, ?_, ?_⟩
  · intro y
    constructor
    · intro hy
      obtain ⟨e', he', rfl⟩ := List.mem_map.mp hy.1
      rw [List.inj_on_of_nodup_map hnodup he' he (hy.2.trans hk.symm)]
    · rintro rfl
      exact ⟨List.mem_map.mpr ⟨e, he, rfl⟩, hk⟩
  · simp only [Route.measuredRtt, hrtt]
    split
    next hne => simpa using hne
    next heq => simpa using heq

/-- A route that is confirmed again after it was measured. -/
def confirmedHistory (rtt : UInt32) : List (RouteOp Nat) :=
  [.addRoute 0 1 ⟨pathOne, 0, 9999⟩, .updateRtt 1 pathOne rtt, .addRoute 1 1 ⟨pathOne, 0, 9999⟩]

theorem measured_rtt_iff_confirmed :
    ∃ x, (∀ y, y ∈ ((new .lowestLatency : RouteTable Nat).runOps (confirmedHistory 25)).route 1 ∧
        y.routeKey = pathOne ↔ y = x) ∧
      (x.measuredRtt = some 25 ↔ 25 ≠ DEFAULT_RTT) :=
  measured_rtt_iff .lowestLatency [.addRoute 0 1 ⟨pathOne, 0, 9999⟩]
    [.addRoute 1 1 ⟨pathOne, 0, 9999⟩] 1 pathOne 25 ⟨0, by decide⟩ (by decide)

/-- A round trip of 9999 milliseconds is not reported. -/
theorem rtt_of_sentinel_not_reported :
    ¬ ∀ (policy : LoadBalance) (ops ops' : List (RouteOp Nat)) (p : Nat) (k : RouteKey)
      (rtt : UInt32), 1 ≤ rtt → rtt ≤ 59999 →
      ((new policy : RouteTable Nat).runOps ops).Knows p k →
      (∀ op ∈ ops', ¬ Removes p k op ∧ ¬ Measures p k op) →
      ∀ x ∈ ((new policy : RouteTable Nat).runOps (ops ++ .updateRtt p k rtt :: ops')).route p,
        x.routeKey = k → x.measuredRtt = some rtt := by
  intro h
  have hreported := h .lowestLatency [.addRoute 0 1 ⟨pathOne, 0, 9999⟩]
    [.addRoute 1 1 ⟨pathOne, 0, 9999⟩] 1 pathOne 9999 (by decide) (by decide) ⟨0, by decide⟩
    (by decide) ⟨pathOne, 0, 9999⟩ (by decide) rfl
  cases hreported

end RouteTable

end RustP2p
