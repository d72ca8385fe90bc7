import RustP2p.Core.RouteOps

/-!
# The index of direct routes

`route_key_table` sends a key to a peer that has it as a direct route.  It is
written when `add_route_` pushes a direct route, and given up when that peer
removes the route.

* *Sound*: the peer that the index names has the key as a direct route.  This
  holds after every history, since a direct route is never downgraded.
* *Complete*: a key that some peer has as a direct route is in the index.  This
  does not hold after every history.  A relay route that `add_route` makes
  direct in place is not put in the index, and a key that two peers have leaves
  the index with the one that it names.  `KeepsIndexed` rules out these two, and
  then the index is complete, and only then.
-/

namespace RustP2p

namespace RouteTable

variable {ι : Type} [DecidableEq ι]

/-! ## What each call does to the direct routes -/

theorem has_removeRoute {t : RouteTable ι} {id p : ι} {key k : RouteKey} {m : UInt8} :
    (t.removeRoute id key).Has p k m ↔ t.Has p k m ∧ ¬ (p = id ∧ k = key) := by
  simp only [has_iff_listed, timedRoutes_removeRoute]
  split
  next hp =>
    subst hp
    simp only [Listed, List.mem_filter]
    constructor
    · intro h
      obtain ⟨e, ⟨he, hkey⟩, rfl, rfl⟩ := h
      exact ⟨⟨e, he, rfl, rfl⟩, by simpa using hkey⟩
    · intro h
      obtain ⟨⟨e, he, rfl, rfl⟩, hkey⟩ := h
      exact ⟨e, ⟨he, by simpa using hkey⟩, rfl, rfl⟩
  next hp => simp only [hp, false_and, not_false_iff, and_true]

theorem has_removeAll {t : RouteTable ι} {id p : ι} {k : RouteKey} {m : UInt8} :
    (t.removeAll id).Has p k m ↔ t.Has p k m ∧ p ≠ id := by
  simp only [has_iff_listed, timedRoutes_removeAll]
  split
  next hp => simp [hp, Listed]
  next hp => simp [hp]

/-- The peer has a route with the key. -/
def Knows (t : RouteTable ι) (p : ι) (k : RouteKey) : Prop := ∃ m, t.Has p k m

theorem knows_of_list {t : RouteTable ι} {p : ι} {pre post : List TimedRoute} {x : Route}
    {time : Instant} (list : t.timedRoutes p = pre ++ (x, time) :: post) :
    t.Knows p x.routeKey := by
  refine ⟨x.metric, has_iff_listed.mpr ⟨(x, time), ?_, rfl, rfl⟩⟩
  rw [list]
  exact List.mem_append_right _ (.head _)

theorem not_knows_of_passed {t : RouteTable ι} {p : ι} {r : Route}
    (passed : ∀ e ∈ t.timedRoutes p, Passes t.loadBalance r e.1) : ¬ t.Knows p r.routeKey := by
  intro h
  obtain ⟨m, hm⟩ := h
  obtain ⟨e, he, hkey, -⟩ := has_iff_listed.mp hm
  exact (passed e he).2 hkey

/-- The direct routes after `add_route`. -/
theorem direct_addRoute {t : RouteTable ι} {now : Instant} {id p : ι} {r : Route} {k : RouteKey} :
    (t.addRoute now id r).2.Has p k 0 ↔
      t.Has p k 0 ∨ p = id ∧ k = r.routeKey ∧ r.metric = 0 := by
  constructor
  · intro h
    rcases has_addRoute h with hold | ⟨hp, hk, hm⟩
    · exact Or.inl hold
    · exact Or.inr ⟨hp, hk, hm.symm⟩
  · intro h
    rcases h with hold | ⟨rfl, rfl, hm⟩
    · exact hold.addRoute
    · exact has_addRoute_self hm

/-- The direct routes after `add_route_if_absent`. -/
theorem direct_addRouteIfAbsent {t : RouteTable ι} {now : Instant} {id p : ι} {r : Route}
    {k : RouteKey} :
    (t.addRouteIfAbsent now id r).2.Has p k 0 ↔
      t.Has p k 0 ∨ p = id ∧ k = r.routeKey ∧ r.metric = 0 ∧ ¬ t.Knows id k := by
  have hadded := added_addRoute_ t now id r true
  simp only [addRouteIfAbsent]
  generalize (t.addRoute_ now id r true).2 = t' at hadded
  cases hadded with
  | rejected mem beaten =>
      simp only [relay_of_lt beaten.1, false_and, and_false, or_false]
  | touched list key known =>
      have hknows := knows_of_list list
      rw [key] at hknows
      rw [has_touched list]
      constructor
      · exact Or.inl
      · intro h
        rcases h with hold | ⟨-, rfl, -, hnew⟩
        · exact hold
        · exact absurd hknows hnew
  | updated list key overwrites => cases overwrites
  | pushed passed indexed =>
      have hnew := not_knows_of_passed passed
      rw [has_pushed]
      constructor
      · intro h
        rcases h with hold | ⟨hp, rfl, hm⟩
        · exact Or.inl hold
        · exact Or.inr ⟨hp, rfl, hm.symm, hnew⟩
      · intro h
        rcases h with hold | ⟨hp, hk, hm, -⟩
        · exact Or.inl hold
        · exact Or.inr ⟨hp, hk, hm.symm⟩

/-! ## What each call does to the index -/

/-- `add_route_` names the peer for a direct route with a key it does not know. -/
theorem index_addRoute_ (t : RouteTable ι) (now : Instant) (id : ι) (r : Route)
    (onlyIfAbsent : Bool) (k : RouteKey) :
    (k = r.routeKey ∧ r.metric = 0 ∧ ¬ t.Knows id k ∧
        (t.addRoute_ now id r onlyIfAbsent).2.getIdByRouteKey k = some id) ∨
      (¬ (k = r.routeKey ∧ r.metric = 0 ∧ ¬ t.Knows id k) ∧
        (t.addRoute_ now id r onlyIfAbsent).2.getIdByRouteKey k = t.getIdByRouteKey k) := by
  have hadded := added_addRoute_ t now id r onlyIfAbsent
  generalize (t.addRoute_ now id r onlyIfAbsent).2 = t' at hadded
  cases hadded with
  | rejected mem beaten =>
      refine Or.inr ⟨?_, rfl⟩
      intro h
      exact relay_of_lt beaten.1 h.2.1
  | touched list key known =>
      refine Or.inr ⟨?_, rfl⟩
      intro h
      obtain ⟨rfl, -, hnew⟩ := h
      exact hnew (key ▸ knows_of_list list)
  | updated list key overwrites unbeaten upgrade changed =>
      refine Or.inr ⟨?_, rfl⟩
      intro h
      obtain ⟨rfl, -, hnew⟩ := h
      exact hnew (key ▸ knows_of_list list)
  | @pushed index passed indexed =>
      have hindex : (({ t with routeKeyTable := index } : RouteTable ι).setRoutes id
          (reorder t.loadBalance (t.timedRoutes id).length
            (t.timedRoutes id ++ [(r, now)]))).getIdByRouteKey k = index.get k := rfl
      rw [hindex, indexed]
      by_cases hdirect : r.isDirect = true
      · rw [if_pos hdirect, DashMap.get_insert]
        by_cases hk : k = r.routeKey
        · exact Or.inl ⟨hk, Route.isDirect_iff.mp hdirect, hk ▸ not_knows_of_passed passed,
            if_pos hk⟩
        · exact Or.inr ⟨fun h => hk h.1, if_neg hk⟩
      · rw [if_neg hdirect]
        exact Or.inr ⟨fun h => hdirect (Route.isDirect_iff.mpr h.2.1), rfl⟩

/-- `remove_if` of a key, when the index names the peer for it. -/
theorem get_removeIf_owner {index : DashMap RouteKey ι} {id q : ι} {key k : RouteKey} :
    (index.removeIf key (· = id)).get k = some q ↔
      index.get k = some q ∧ ¬ (q = id ∧ k = key) := by
  rw [DashMap.get_removeIf]
  split
  next h =>
    obtain ⟨rfl, hany⟩ := h
    have hid : index.get k = some id := by simpa [Option.any_eq_true] using hany
    constructor
    · intro hnone
      cases hnone
    · intro h
      obtain ⟨hq, hne⟩ := h
      rw [hid] at hq
      exact absurd ⟨(Option.some.inj hq).symm, rfl⟩ hne
  next h =>
    constructor
    · intro hq
      refine ⟨hq, ?_⟩
      intro h
      obtain ⟨rfl, rfl⟩ := h
      exact h ⟨rfl, by simp [hq]⟩
    · exact And.left

/-- `remove_route` gives up the key if the index names the peer. -/
theorem index_removeRoute {t : RouteTable ι} {id q : ι} {key k : RouteKey} :
    (t.removeRoute id key).getIdByRouteKey k = some q ↔
      t.getIdByRouteKey k = some q ∧ ¬ (t.exists_ id = true ∧ q = id ∧ k = key) := by
  simp only [removeRoute]
  split
  next hentry => simp [exists_, hentry]
  next entry hentry =>
    have hexists : t.exists_ id = true := by simp [exists_, hentry]
    simp only [hexists, true_and]
    split <;> exact get_removeIf_owner

/-- The index after the loop of `remove_all`. -/
theorem get_foldl_removeIf {id q : ι} {k : RouteKey} (l : List TimedRoute)
    (index : DashMap RouteKey ι) :
    (l.foldl (fun index e => if e.1.isDirect then index.removeIf e.1.routeKey (· = id)
        else index) index).get k = some q ↔
      index.get k = some q ∧ ¬ (q = id ∧ Listed l k 0) := by
  induction l generalizing index with
  | nil => simp [Listed]
  | cons e l ih =>
      rw [List.foldl_cons, ih, listed_cons]
      split
      next hdirect =>
        rw [get_removeIf_owner]
        have hzero := Route.isDirect_iff.mp hdirect
        constructor
        · intro h
          obtain ⟨⟨hq, he⟩, hl⟩ := h
          refine ⟨hq, ?_⟩
          intro h
          rcases h with ⟨hid, ⟨hk, -⟩ | hlisted⟩
          · exact he ⟨hid, hk.symm⟩
          · exact hl ⟨hid, hlisted⟩
        · intro hkept
          obtain ⟨hq, h⟩ := hkept
          exact ⟨⟨hq, fun he => h ⟨he.1, Or.inl ⟨he.2.symm, hzero⟩⟩⟩,
            fun hl => h ⟨hl.1, Or.inr hl.2⟩⟩
      next hrelay =>
        have hzero : e.1.metric ≠ 0 := by simpa using hrelay
        simp only [hzero, and_false, false_or]

/-- `remove_all` gives up the keys of the direct routes for which the index names the
peer. -/
theorem index_removeAll {t : RouteTable ι} {id q : ι} {k : RouteKey} :
    (t.removeAll id).getIdByRouteKey k = some q ↔
      t.getIdByRouteKey k = some q ∧ ¬ (q = id ∧ t.Has id k 0) := by
  simp only [removeAll]
  split
  next hentry =>
    have hnot : ¬ t.Has id k 0 := by
      intro hhas
      have hexists := exists_of_has hhas
      simp [exists_, hentry] at hexists
    simp only [hnot, and_false, not_false_iff, and_true]
  next entry hentry =>
    have hl : t.timedRoutes id = entry.routes := by simp [timedRoutes, hentry]
    rw [has_iff_listed, hl]
    exact get_foldl_removeIf entry.routes t.routeKeyTable

/-- The other calls leave the index as it is. -/
theorem index_updateReadTime (t : RouteTable ι) (now : Instant) (id : ι) (key k : RouteKey) :
    (t.updateReadTime now id key).getIdByRouteKey k = t.getIdByRouteKey k := by
  simp only [updateReadTime]
  split <;> rfl

theorem index_updateRtt (t : RouteTable ι) (id : ι) (key : RouteKey) (rtt : UInt32)
    (k : RouteKey) : (t.updateRtt id key rtt).getIdByRouteKey k = t.getIdByRouteKey k := by
  simp only [updateRtt]
  split <;> rfl

theorem index_getRouteById (t : RouteTable ι) (id : ι) (k : RouteKey) :
    (t.getRouteById id).2.getIdByRouteKey k = t.getIdByRouteKey k := by
  rcases getRouteById_snd t id with h | ⟨entry, count, -, h⟩
  · rw [h]
  · rw [h]
    rfl

/-! ## Soundness -/

/-- The peer that the index names for a key has it as a direct route. -/
def IndexSound (t : RouteTable ι) : Prop :=
  ∀ k p, t.getIdByRouteKey k = some p → t.Has p k 0

theorem IndexSound.addRoute_ {t : RouteTable ι} (h : t.IndexSound) (now : Instant) (id : ι)
    (r : Route) (onlyIfAbsent : Bool) : (t.addRoute_ now id r onlyIfAbsent).2.IndexSound := by
  intro k p hp
  rcases index_addRoute_ t now id r onlyIfAbsent k with ⟨rfl, hm, hnew, hid⟩ | ⟨-, hold⟩
  · obtain rfl : id = p := by
      rw [hid] at hp
      exact Option.some.inj hp
    cases onlyIfAbsent with
    | false => exact direct_addRoute.mpr (Or.inr ⟨rfl, rfl, hm⟩)
    | true => exact direct_addRouteIfAbsent.mpr (Or.inr ⟨rfl, rfl, hm, hnew⟩)
  · rw [hold] at hp
    exact (h k p hp).addRoute_

/-- A call keeps the index sound. -/
theorem IndexSound.apply {t : RouteTable ι} (h : t.IndexSound) (op : RouteOp ι) :
    (t.apply op).IndexSound := by
  cases op with
  | addRoute now id r => exact h.addRoute_ now id r false
  | addRouteIfAbsent now id r => exact h.addRoute_ now id r true
  | updateReadTime now id key =>
      intro k p hp
      rw [RouteTable.apply, index_updateReadTime] at hp
      exact has_updateReadTime.mpr (h k p hp)
  | updateRtt id key rtt =>
      intro k p hp
      rw [RouteTable.apply, index_updateRtt] at hp
      exact has_updateRtt.mpr (h k p hp)
  | getRouteById id =>
      intro k p hp
      rw [RouteTable.apply, index_getRouteById] at hp
      exact has_getRouteById.mpr (h k p hp)
  | removeRoute id key =>
      intro k p hp
      obtain ⟨hold, hkept⟩ := index_removeRoute.mp hp
      refine has_removeRoute.mpr ⟨h k p hold, ?_⟩
      intro h
      obtain ⟨rfl, rfl⟩ := h
      exact hkept ⟨exists_of_has (h k p hold), rfl, rfl⟩
  | removeAll id =>
      intro k p hp
      obtain ⟨hold, hkept⟩ := index_removeAll.mp hp
      refine has_removeAll.mpr ⟨h k p hold, ?_⟩
      rintro rfl
      exact hkept ⟨rfl, h k p hold⟩

theorem indexSound_runOps (policy : LoadBalance) (ops : List (RouteOp ι)) :
    ((new policy : RouteTable ι).runOps ops).IndexSound := by
  refine runOps_invariant (I := IndexSound) (fun t op h => h.apply op) ops ?_
  intro k p hp
  cases hp

/-- After every history, a peer that the index names for a key has a direct route with
that key. -/
theorem index_sound (policy : LoadBalance) (ops : List (RouteOp ι)) (k : RouteKey) (p : ι) :
    let t := (new policy : RouteTable ι).runOps ops
    (t.isRouteOfPeerId p k = true ↔ t.getIdByRouteKey k = some p) ∧
      (t.getIdByRouteKey k = some p →
        ∃ r ∈ t.route p, r.routeKey = k ∧ r.isDirect = true) := by
  intro t
  constructor
  · simp only [isRouteOfPeerId, getIdByRouteKey]
    cases t.routeKeyTable.get k with
    | none => simp
    | some q => simp
  · intro hp
    obtain ⟨r, hr, hk, hm⟩ := indexSound_runOps policy ops k p hp
    exact ⟨r, hr, hk, Route.isDirect_iff.mpr hm⟩

theorem index_sound_direct :
    let t := (new .mostRecent : RouteTable Nat).runOps
      [.addRoute 0 1 ⟨pathOne, 0, 9999⟩, .addRoute 1 2 ⟨pathOne, 0, 9999⟩, .removeAll 1]
    t.getIdByRouteKey pathOne = some 2 ∧
      ∃ r ∈ t.route 2, r.routeKey = pathOne ∧ r.isDirect = true := by
  have hid : ((new .mostRecent : RouteTable Nat).runOps
      [.addRoute 0 1 ⟨pathOne, 0, 9999⟩, .addRoute 1 2 ⟨pathOne, 0, 9999⟩,
        .removeAll 1]).getIdByRouteKey pathOne = some 2 := by decide
  exact ⟨hid, (index_sound .mostRecent _ pathOne 2).2 hid⟩

/-! ## Completeness -/

/-- The scanning lookup finds a key exactly when some peer has it as a direct route. -/
theorem routeToId_isSome {t : RouteTable ι} {k : RouteKey} :
    (t.routeToId k).isSome = true ↔ ∃ p, t.Has p k 0 := by
  simp only [routeToId, Option.isSome_map, List.find?_isSome, has_iff_listed]
  constructor
  · intro h
    obtain ⟨⟨p, entry⟩, hmem, hany⟩ := h
    have hl : t.timedRoutes p = entry.routes := by
      simp [timedRoutes, DashMap.mem_pairs.mp hmem]
    refine ⟨p, ?_⟩
    rw [hl]
    simpa [Listed] using hany
  · intro h
    obtain ⟨p, hp⟩ := h
    cases hentry : t.routeTable.get p with
    | none => simp [timedRoutes, hentry, Listed] at hp
    | some entry =>
        refine ⟨(p, entry), DashMap.mem_pairs.mpr hentry, ?_⟩
        simpa [timedRoutes, hentry, Listed] using hp

/-- A key that the scanning lookup finds is in the index, for a peer that has it as a
direct route.  So the two lookups agree on whether a key has a direct owner. -/
def IndexComplete (t : RouteTable ι) : Prop :=
  ∀ k, ((t.routeToId k).isSome = true → ∃ p, t.getIdByRouteKey k = some p ∧ t.Has p k 0) ∧
    ((t.routeToId k).isSome = true ↔ (t.getIdByRouteKey k).isSome = true)

/-- Every direct route is in the index. -/
def Indexed (t : RouteTable ι) : Prop := ∀ k p, t.Has p k 0 → ∃ q, t.getIdByRouteKey k = some q

theorem IndexSound.complete_iff {t : RouteTable ι} (h : t.IndexSound) :
    t.IndexComplete ↔ t.Indexed := by
  simp only [IndexComplete, Indexed, routeToId_isSome]
  simp only [Option.isSome_iff_exists]
  constructor
  · intro hcomplete k p hp
    exact (hcomplete k).2.mp ⟨p, hp⟩
  · intro hindexed k
    refine ⟨?_, ?_, ?_⟩
    · intro h
      obtain ⟨p, hp⟩ := h
      obtain ⟨q, hq⟩ := hindexed k p hp
      exact ⟨q, hq, h k q hq⟩
    · intro h
      obtain ⟨p, hp⟩ := h
      exact hindexed k p hp
    · intro h
      obtain ⟨q, hq⟩ := h
      exact ⟨q, h k q hq⟩

/-- When a call loses no direct route from the index.  A route that becomes direct in
place has a key that is indexed already, and a peer that the index names is the
only one with the key when it gives it up. -/
def KeepsIndexed (t : RouteTable ι) : RouteOp ι → Prop
  | .addRoute _ id r => r.metric = 0 → (∃ m, m ≠ 0 ∧ t.Has id r.routeKey m) →
      (t.getIdByRouteKey r.routeKey).isSome = true
  | .removeRoute id key => t.getIdByRouteKey key = some id → ∀ p, t.Has p key 0 → p = id
  | .removeAll id => ∀ k, t.getIdByRouteKey k = some id → ∀ p, t.Has p k 0 → p = id
  | _ => True

section Step

variable {t : RouteTable ι}

theorem indexed_addRoute (hindexed : t.Indexed) {now : Instant} {id : ι} {r : Route} :
    (t.addRoute now id r).2.Indexed ↔ t.KeepsIndexed (.addRoute now id r) := by
  constructor
  · intro h hm h
    obtain ⟨m, -, hrelay⟩ := h
    obtain ⟨q, hq⟩ := h r.routeKey id (has_addRoute_self hm)
    -- The key was known before, so the index did not change.
    rcases index_addRoute_ t now id r false r.routeKey with ⟨-, -, hnew, -⟩ | ⟨-, hold⟩
    · exact absurd ⟨m, hrelay⟩ hnew
    · rw [addRoute, hold] at hq
      rw [hq]
      rfl
  · intro h k p hp
    rcases index_addRoute_ t now id r false k with ⟨-, -, -, hid⟩ | ⟨hknown, hold⟩
    · exact ⟨id, hid⟩
    · simp only [addRoute, hold]
      rcases direct_addRoute.mp hp with hp | ⟨rfl, rfl, hm⟩
      · exact hindexed k p hp
      · obtain ⟨m, hrelay⟩ : t.Knows p r.routeKey := by
          by_contra hnew
          exact hknown ⟨rfl, hm, hnew⟩
        by_cases hzero : m = 0
        · exact hindexed _ p (hzero ▸ hrelay)
        · exact Option.isSome_iff_exists.mp (h hm ⟨m, hzero, hrelay⟩)

theorem indexed_addRouteIfAbsent (hindexed : t.Indexed) {now : Instant} {id : ι} {r : Route} :
    (t.addRouteIfAbsent now id r).2.Indexed := by
  intro k p hp
  rcases index_addRoute_ t now id r true k with ⟨-, -, -, hid⟩ | ⟨hknown, hold⟩
  · exact ⟨id, hid⟩
  · simp only [addRouteIfAbsent, hold]
    rcases direct_addRouteIfAbsent.mp hp with hp | ⟨rfl, rfl, hm, hnew⟩
    · exact hindexed k p hp
    · exact absurd ⟨rfl, hm, hnew⟩ hknown

theorem indexed_removeRoute (hsound : t.IndexSound) (hindexed : t.Indexed) {id : ι}
    {key : RouteKey} :
    (t.removeRoute id key).Indexed ↔ t.KeepsIndexed (.removeRoute id key) := by
  constructor
  · intro h hid p hp
    by_contra hne
    -- Another peer keeps the key, but the index gives it up.
    obtain ⟨q, hq⟩ := h key p (has_removeRoute.mpr ⟨hp, fun heq => hne heq.1⟩)
    obtain ⟨hold, hkept⟩ := index_removeRoute.mp hq
    rw [hid] at hold
    exact hkept ⟨exists_of_has (hsound key id hid), (Option.some.inj hold).symm, rfl⟩
  · intro h k p hp
    obtain ⟨hdirect, hother⟩ := has_removeRoute.mp hp
    obtain ⟨q, hq⟩ := hindexed k p hdirect
    refine ⟨q, index_removeRoute.mpr ⟨hq, ?_⟩⟩
    intro h
    obtain ⟨-, rfl, rfl⟩ := h
    exact hother ⟨h hq p hdirect, rfl⟩

theorem indexed_removeAll (hsound : t.IndexSound) (hindexed : t.Indexed) {id : ι} :
    (t.removeAll id).Indexed ↔ t.KeepsIndexed (.removeAll id) := by
  constructor
  · intro h k hid p hp
    by_contra hne
    obtain ⟨q, hq⟩ := h k p (has_removeAll.mpr ⟨hp, hne⟩)
    obtain ⟨hold, hkept⟩ := index_removeAll.mp hq
    rw [hid] at hold
    exact hkept ⟨(Option.some.inj hold).symm, hsound k id hid⟩
  · intro h k p hp
    obtain ⟨hdirect, hother⟩ := has_removeAll.mp hp
    obtain ⟨q, hq⟩ := hindexed k p hdirect
    refine ⟨q, index_removeAll.mpr ⟨hq, ?_⟩⟩
    intro h
    obtain ⟨rfl, -⟩ := h
    exact hother (h k hq p hdirect)

/-- A call keeps every direct route in the index exactly if it meets `KeepsIndexed`. -/
theorem indexed_apply (hsound : t.IndexSound) (hindexed : t.Indexed) {op : RouteOp ι} :
    (t.apply op).Indexed ↔ t.KeepsIndexed op := by
  have unchanged {t' : RouteTable ι} (hhas : ∀ p k, t'.Has p k 0 ↔ t.Has p k 0)
      (hindex : ∀ k, t'.getIdByRouteKey k = t.getIdByRouteKey k) : t'.Indexed ↔ True := by
    simp only [Indexed, hhas, hindex, iff_true]
    exact hindexed
  cases op with
  | addRoute now id r => exact indexed_addRoute hindexed
  | addRouteIfAbsent now id r => exact iff_true_intro (indexed_addRouteIfAbsent hindexed)
  | updateReadTime now id key =>
      exact unchanged (fun _ _ => has_updateReadTime) (index_updateReadTime t now id key)
  | updateRtt id key rtt =>
      exact unchanged (fun _ _ => has_updateRtt) (index_updateRtt t id key rtt)
  | getRouteById id => exact unchanged (fun _ _ => has_getRouteById) (index_getRouteById t id)
  | removeRoute id key => exact indexed_removeRoute hsound hindexed
  | removeAll id => exact indexed_removeAll hsound hindexed

end Step

/-- The index is complete all along a history exactly if every call of it keeps every
direct route in the index. -/
theorem index_complete_iff (policy : LoadBalance) (ops : List (RouteOp ι)) :
    (∀ pre, pre <+: ops → ((new policy : RouteTable ι).runOps pre).IndexComplete) ↔
      Transition.Along step KeepsIndexed (new policy : RouteTable ι) ops := by
  rw [← Transition.invariant_iff_along (I := Indexed) (run_step _ ops)]
  · constructor
    · intro h pre m hpre hm
      rw [run_step] at hm
      cases hm
      exact (indexSound_runOps policy pre).complete_iff.mp (h pre hpre)
    · intro h pre hpre
      exact (indexSound_runOps policy pre).complete_iff.mpr (h pre _ hpre (run_step _ pre))
  · intro k p hp
    exact absurd hp (not_has_new policy p k 0)
  · intro pre m op m' hm hop hindexed
    rw [run_step] at hm
    cases hm
    cases hop
    exact indexed_apply (indexSound_runOps policy pre) hindexed

/-- A relay route of a peer that becomes direct in place. -/
def upgradeHistory : List (RouteOp Nat) :=
  [.addRoute 0 1 ⟨pathOne, 1, 9999⟩, .addRoute 1 1 ⟨pathOne, 0, 9999⟩]

/-- The scan finds the upgraded route and the index does not. -/
theorem upgraded_route_not_indexed :
    ¬ ∀ (policy : LoadBalance) (ops : List (RouteOp Nat)),
      ((new policy : RouteTable Nat).runOps ops).IndexComplete := by
  intro h
  have hagree := (h .minHopLowestLatency upgradeHistory pathOne).2
  exact absurd hagree (by decide)

end RouteTable

end RustP2p
