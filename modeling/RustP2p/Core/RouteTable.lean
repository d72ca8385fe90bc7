import RustP2p.Core.Addr
import Mathlib.Data.List.Sort

/-!
# The route table

`RouteTable` of `route_table/table.rs`.  Each peer has a list of routes with
their last read time, and a counter for round robin.  A second map sends a
route key to the peer that owns it as a direct route.

`addRoute_` is the one operation that adds or changes a route.  It scans the
peer's list once (`scan`).  The scan stops at the first route that is shorter
and of the same kind (the new route is rejected), or at the first route with
the new route's key (`scanned_scan`).  Afterwards the list is put in the order
of the policy.  `Added` has one constructor per way a call can end, and what is
proved of the operation is read off it.

`Has t p k m` says that `p` has a route with key `k` and metric `m`.  What the
layers above need to know of every operation is what it does to `Has`:
`has_addRoute` bounds what it may add, `has_addRoute_self` says that a direct
route is always accepted, and `Has.addRoute` that a direct route is never lost.
-/

namespace RustP2p

/-- `DEFAULT_RTT`, the sentinel of a route that was never measured. -/
def DEFAULT_RTT : UInt32 := 9999

/-- `endpoint::LoadBalance`. -/
inductive LoadBalance where
  | minHopLowestLatency
  | roundRobin
  | mostRecent
  | lowestLatency
deriving DecidableEq, Repr

/-! ## Routes -/

/-- `route_table::Route`. -/
structure Route where
  routeKey : RouteKey
  metric : UInt8
  rtt : UInt32
deriving DecidableEq, Repr

namespace Route

/-- `Route::from_default_rt`. -/
def fromDefaultRt (routeKey : RouteKey) (metric : UInt8) : Route :=
  ⟨routeKey, metric, DEFAULT_RTT⟩

/-- `Route::is_direct`. -/
def isDirect (r : Route) : Bool := r.metric = 0

/-- `Route::rtt`: the measured round trip, `none` for the sentinel. -/
def measuredRtt (r : Route) : Option UInt32 := if r.rtt ≠ DEFAULT_RTT then some r.rtt else none

/-- The order of `RouteSortKey`: by metric, then by round trip. -/
def sortKeyLe (x y : Route) : Prop := x.metric < y.metric ∨ x.metric = y.metric ∧ x.rtt ≤ y.rtt

instance (x y : Route) : Decidable (sortKeyLe x y) := inferInstanceAs (Decidable (_ ∨ _))

@[simp] theorem isDirect_iff {r : Route} : r.isDirect = true ↔ r.metric = 0 := by
  simp [isDirect]

end Route

/-- `std::time::Instant`, in ticks of the monotonic clock. -/
abbrev Instant := Nat

/-- A route and the time a packet was last read from it. -/
abbrev TimedRoute := Route × Instant

/-! ## Reordering a list of routes -/

/-- `slice::swap` of a list. -/
def swapAt {α : Type} (l : List α) (i j : Nat) : List α :=
  match l[i]?, l[j]? with
  | some x, some y => (l.set i y).set j x
  | _, _ => l

theorem swapAt_perm {α : Type} (l : List α) (i j : Nat) : (swapAt l i j).Perm l := by
  simp only [swapAt]
  split
  next x y hx hy =>
    obtain ⟨hi, rfl⟩ := List.getElem?_eq_some_iff.mp hx
    obtain ⟨hj, rfl⟩ := List.getElem?_eq_some_iff.mp hy
    exact List.set_set_perm hi hj
  next => exact List.Perm.refl l

/-- The order `add_route_` restores after it changed or pushed the route at
`index`.  `sort_by_key` is stable, as insertion sort is. -/
def reorder (policy : LoadBalance) (index : Nat) (l : List TimedRoute) : List TimedRoute :=
  match policy with
  | .mostRecent => swapAt l 0 index
  | .lowestLatency => l.insertionSort fun x y => x.1.rtt ≤ y.1.rtt
  | _ => l.insertionSort fun x y => Route.sortKeyLe x.1 y.1

theorem reorder_perm (policy : LoadBalance) (index : Nat) (l : List TimedRoute) :
    (reorder policy index l).Perm l := by
  cases policy with
  | mostRecent => exact swapAt_perm l 0 index
  | lowestLatency => exact List.perm_insertionSort _ l
  | minHopLowestLatency => exact List.perm_insertionSort _ l
  | roundRobin => exact List.perm_insertionSort _ l

/-- What `update_rtt` does to the order is a permutation under every policy. -/
theorem resort_perm (policy : LoadBalance) (l : List TimedRoute) :
    (if policy = .lowestLatency then l.insertionSort fun x y => x.1.rtt ≤ y.1.rtt
      else l).Perm l := by
  split
  next => exact List.perm_insertionSort _ l
  next => exact List.Perm.refl l

/-! ## The scan of `add_route_` -/

/-- How the loop of `add_route_` leaves a peer's list. -/
inductive Scan where
  /-- A shorter route of the same kind comes first: `return false`. -/
  | rejected
  /-- The key is known and only its read time changes: `return true`. -/
  | kept (routes : List TimedRoute)
  /-- The key is known and its route, at `index`, takes the new metric. -/
  | updated (index : Nat) (routes : List TimedRoute)
  /-- No route has the key. -/
  | absent

/-- The loop of `add_route_` over a peer's list. -/
def scan (policy : LoadBalance) (onlyIfAbsent : Bool) (now : Instant) (route : Route) :
    List TimedRoute → Scan
  | [] => .absent
  | (x, time) :: rest =>
      if x.metric < route.metric ∧ policy ≠ .lowestLatency ∧ x.isDirect = route.isDirect then
        .rejected
      else if x.routeKey = route.routeKey then
        if onlyIfAbsent then
          .kept ((x, now) :: rest)
        else if x.isDirect ∧ ¬ route.isDirect then
          -- The path is already known to be direct and is not downgraded.
          .kept ((x, now) :: rest)
        else
          let rtt := if route.rtt ≠ DEFAULT_RTT then route.rtt else x.rtt
          .updated 0 (({ x with metric := route.metric, rtt := rtt }, now) :: rest)
      else
        match scan policy onlyIfAbsent now route rest with
        | .rejected => .rejected
        | .kept routes => .kept ((x, time) :: routes)
        | .updated index routes => .updated (index + 1) ((x, time) :: routes)
        | .absent => .absent

/-- Sets the read time of the first route with the key, if there is one. -/
def touch (key : RouteKey) (now : Instant) : List TimedRoute → Option (List TimedRoute)
  | [] => none
  | (x, time) :: rest =>
      if x.routeKey = key then some ((x, now) :: rest)
      else (touch key now rest).map ((x, time) :: ·)

/-- Sets the round trip of the first route with the key, if there is one. -/
def measure (key : RouteKey) (rtt : UInt32) : List TimedRoute → Option (List TimedRoute)
  | [] => none
  | (x, time) :: rest =>
      if x.routeKey = key then some (({ x with rtt := rtt }, time) :: rest)
      else (measure key rtt rest).map ((x, time) :: ·)

/-! ## The table -/

/-- What the table holds for one peer: the round-robin counter and the routes. -/
structure PeerRoutes where
  count : UInt64
  routes : List TimedRoute
deriving DecidableEq, Repr

/-- `route_table::RouteTable`. -/
structure RouteTable (ι : Type) where
  routeTable : DashMap ι PeerRoutes
  routeKeyTable : DashMap RouteKey ι
  loadBalance : LoadBalance

namespace RouteTable

variable {ι : Type} [DecidableEq ι]

/-- `RouteTable::new`. -/
def new (loadBalance : LoadBalance) : RouteTable ι := ⟨∅, ∅, loadBalance⟩

/-- The timed routes of a peer, in list order. -/
def timedRoutes (t : RouteTable ι) (id : ι) : List TimedRoute :=
  (t.routeTable.get id).elim [] PeerRoutes.routes

/-- `RouteTable::route`, `unwrap_or_default`. -/
def route (t : RouteTable ι) (id : ι) : List Route := (t.timedRoutes id).map Prod.fst

/-- Stores a peer's list, keeping its counter. -/
def setRoutes (t : RouteTable ι) (id : ι) (routes : List TimedRoute) : RouteTable ι :=
  let count := (t.routeTable.get id).elim 0 PeerRoutes.count
  { t with routeTable := t.routeTable.insert id ⟨count, routes⟩ }

/-- `RouteTable::get_route_by_id`.  Under round robin a relay pick moves the
counter, which `fetch_add` wraps. -/
def getRouteById (t : RouteTable ι) (id : ι) : IoResult Route × RouteTable ι :=
  let notFound : IoResult Route := .error ⟨.notFound, "route not found"⟩
  match t.routeTable.get id with
  | none => (notFound, t)
  | some entry =>
      match entry.routes.find? fun e => e.1.isDirect with
      | some e => (.ok e.1, t)
      | none =>
          if t.loadBalance ≠ .roundRobin then
            match entry.routes with
            | e :: _ => (.ok e.1, t)
            | [] => (notFound, t)
          else
            match entry.routes[entry.count.toNat % entry.routes.length]? with
            | some e =>
                (.ok e.1,
                  { t with
                    routeTable := t.routeTable.insert id { entry with count := entry.count + 1 } })
            | none => (notFound, t)

/-- `RouteTable::exists`. -/
def exists_ (t : RouteTable ι) (id : ι) : Bool := (t.routeTable.get id).isSome

/-- `RouteTable::add_route_`. -/
def addRoute_ (t : RouteTable ι) (now : Instant) (id : ι) (route : Route) (onlyIfAbsent : Bool) :
    Bool × RouteTable ι :=
  match if onlyIfAbsent then touch route.routeKey now (t.timedRoutes id) else none with
  | some routes => (true, t.setRoutes id routes)
  | none =>
      match scan t.loadBalance onlyIfAbsent now route (t.timedRoutes id) with
      -- A rejection has found a route, so `or_insert_with` has not made the entry.
      | .rejected => (false, t)
      | .kept routes => (true, t.setRoutes id routes)
      | .updated index routes => (true, t.setRoutes id (reorder t.loadBalance index routes))
      | .absent =>
          let routes := t.timedRoutes id ++ [(route, now)]
          let t := if route.isDirect then
              { t with routeKeyTable := t.routeKeyTable.insert route.routeKey id }
            else t
          (true, t.setRoutes id (reorder t.loadBalance (routes.length - 1) routes))

/-- `RouteTable::add_route`. -/
def addRoute (t : RouteTable ι) (now : Instant) (id : ι) (route : Route) : Bool × RouteTable ι :=
  t.addRoute_ now id route false

/-- `RouteTable::add_route_if_absent`. -/
def addRouteIfAbsent (t : RouteTable ι) (now : Instant) (id : ι) (route : Route) :
    Bool × RouteTable ι :=
  t.addRoute_ now id route true

/-- `RouteTable::update_read_time`. -/
def updateReadTime (t : RouteTable ι) (now : Instant) (id : ι) (key : RouteKey) : RouteTable ι :=
  match touch key now (t.timedRoutes id) with
  | some routes => t.setRoutes id routes
  | none => t

/-- `RouteTable::update_rtt`. -/
def updateRtt (t : RouteTable ι) (id : ι) (key : RouteKey) (rtt : UInt32) : RouteTable ι :=
  match measure key rtt (t.timedRoutes id) with
  | some routes =>
      t.setRoutes id (if t.loadBalance = .lowestLatency
        then routes.insertionSort fun x y => x.1.rtt ≤ y.1.rtt
        else routes)
  | none => t

/-- `RouteTable::remove_route`.  The closure of `remove_if_mut` runs on the peer's
entry, which is removed when no route is left in it. -/
def removeRoute (t : RouteTable ι) (id : ι) (key : RouteKey) : RouteTable ι :=
  match t.routeTable.get id with
  | none => t
  | some entry =>
      let routes := entry.routes.filter fun e => e.1.routeKey ≠ key
      let t := { t with routeKeyTable := t.routeKeyTable.removeIf key (· = id) }
      if routes.isEmpty then { t with routeTable := t.routeTable.remove id }
      else t.setRoutes id routes

/-- `RouteTable::remove_all`.  The index gives up the keys of the direct routes. -/
def removeAll (t : RouteTable ι) (id : ι) : RouteTable ι :=
  match t.routeTable.get id with
  | none => t
  | some entry =>
      { t with
        routeTable := t.routeTable.remove id
        routeKeyTable := entry.routes.foldl (fun index e =>
          if e.1.isDirect then index.removeIf e.1.routeKey (· = id) else index) t.routeKeyTable }

/-- `RouteTable::get_id_by_route_key`. -/
def getIdByRouteKey (t : RouteTable ι) (key : RouteKey) : Option ι := t.routeKeyTable.get key

/-- `RouteTable::is_route_of_peer_id`. -/
def isRouteOfPeerId (t : RouteTable ι) (id : ι) (key : RouteKey) : Bool :=
  match t.routeKeyTable.get key with
  | some src => src = id
  | none => false

/-- `RouteTable::route_one`. -/
def routeOne (t : RouteTable ι) (id : ι) : Option Route :=
  match t.routeTable.get id with
  | some entry => entry.routes.head?.map Prod.fst
  | none => none

/-- `RouteTable::route_to_id`: the first peer, in iteration order, that has the
key as a direct route. -/
def routeToId (t : RouteTable ι) (key : RouteKey) : Option ι :=
  (t.routeTable.pairs.find? fun e =>
    e.2.routes.any fun r => r.1.routeKey = key ∧ r.1.isDirect).map Prod.fst

/-! ## What a peer has -/

/-- Peer `p` has a route with key `k` and metric `m`. -/
def Has (t : RouteTable ι) (p : ι) (k : RouteKey) (m : UInt8) : Prop :=
  ∃ r ∈ t.route p, r.routeKey = k ∧ r.metric = m

instance (t : RouteTable ι) (p : ι) (k : RouteKey) (m : UInt8) : Decidable (t.Has p k m) :=
  inferInstanceAs (Decidable (∃ r ∈ t.route p, _))

end RouteTable

/-! ## Membership up to read times and round trips -/

/-- A list of timed routes has a route with key `k` and metric `m`. -/
def Listed (l : List TimedRoute) (k : RouteKey) (m : UInt8) : Prop :=
  ∃ e ∈ l, e.1.routeKey = k ∧ e.1.metric = m

theorem listed_cons {e : TimedRoute} {l : List TimedRoute} {k : RouteKey} {m : UInt8} :
    Listed (e :: l) k m ↔ (e.1.routeKey = k ∧ e.1.metric = m) ∨ Listed l k m := by
  simp [Listed]

theorem listed_append {l l' : List TimedRoute} {k : RouteKey} {m : UInt8} :
    Listed (l ++ l') k m ↔ Listed l k m ∨ Listed l' k m := by
  simp only [Listed, List.mem_append, or_and_right, exists_or]

theorem listed_perm {l l' : List TimedRoute} (h : l'.Perm l) {k : RouteKey} {m : UInt8} :
    Listed l' k m ↔ Listed l k m := by
  simp only [Listed, h.mem_iff]

/-- Where a touch finds the key, and what it leaves. -/
theorem touch_eq_some {key : RouteKey} {now : Instant} {l l' : List TimedRoute}
    (h : touch key now l = some l') :
    ∃ pre x time post, l = pre ++ (x, time) :: post ∧ x.routeKey = key ∧
      l' = pre ++ (x, now) :: post := by
  induction l generalizing l' with
  | nil => cases h
  | cons e l ih =>
      rcases e with ⟨x, time⟩
      simp only [touch] at h
      split at h
      next hkey =>
        cases h
        exact ⟨[], x, time, l, rfl, hkey, rfl⟩
      next hkey =>
        obtain ⟨l₁, hl₁, rfl⟩ := Option.map_eq_some_iff.mp h
        obtain ⟨pre, y, time', post, rfl, hy, rfl⟩ := ih hl₁
        exact ⟨(x, time) :: pre, y, time', post, rfl, hy, rfl⟩

theorem touch_eq_none {key : RouteKey} {now : Instant} {l : List TimedRoute} :
    touch key now l = none ↔ ∀ e ∈ l, e.1.routeKey ≠ key := by
  induction l with
  | nil => simp [touch]
  | cons e l ih =>
      rcases e with ⟨x, time⟩
      simp only [touch, List.forall_mem_cons]
      split
      next hkey => simp [hkey]
      next hkey => simp only [Option.map_eq_none_iff, ih, ne_eq, hkey, not_false_iff, true_and]

/-- Where a measurement finds the key, and what it leaves. -/
theorem measure_eq_some {key : RouteKey} {rtt : UInt32} {l l' : List TimedRoute}
    (h : measure key rtt l = some l') :
    ∃ pre x time post, l = pre ++ (x, time) :: post ∧ x.routeKey = key ∧
      l' = pre ++ ({ x with rtt := rtt }, time) :: post := by
  induction l generalizing l' with
  | nil => cases h
  | cons e l ih =>
      rcases e with ⟨x, time⟩
      simp only [measure] at h
      split at h
      next hkey =>
        cases h
        exact ⟨[], x, time, l, rfl, hkey, rfl⟩
      next hkey =>
        obtain ⟨l₁, hl₁, rfl⟩ := Option.map_eq_some_iff.mp h
        obtain ⟨pre, y, time', post, rfl, hy, rfl⟩ := ih hl₁
        exact ⟨(x, time) :: pre, y, time', post, rfl, hy, rfl⟩

theorem measure_eq_none {key : RouteKey} {rtt : UInt32} {l : List TimedRoute} :
    measure key rtt l = none ↔ ∀ e ∈ l, e.1.routeKey ≠ key := by
  induction l with
  | nil => simp [measure]
  | cons e l ih =>
      rcases e with ⟨x, time⟩
      simp only [measure, List.forall_mem_cons]
      split
      next hkey => simp [hkey]
      next hkey => simp only [Option.map_eq_none_iff, ih, ne_eq, hkey, not_false_iff, true_and]

theorem listed_touch {key : RouteKey} {now : Instant} {l l' : List TimedRoute}
    (h : touch key now l = some l') {k : RouteKey} {m : UInt8} : Listed l' k m ↔ Listed l k m := by
  obtain ⟨pre, x, time, post, rfl, -, rfl⟩ := touch_eq_some h
  simp only [listed_append, listed_cons]

theorem listed_measure {key : RouteKey} {rtt : UInt32} {l l' : List TimedRoute}
    (h : measure key rtt l = some l') {k : RouteKey} {m : UInt8} :
    Listed l' k m ↔ Listed l k m := by
  obtain ⟨pre, x, time, post, rfl, -, rfl⟩ := measure_eq_some h
  simp only [listed_append, listed_cons]

section Scan

variable {policy : LoadBalance} {onlyIfAbsent : Bool} {now : Instant} {route : Route}
  {l : List TimedRoute}

/-- The scan goes on past `x`: it neither beats the new route nor has its key. -/
def Passes (policy : LoadBalance) (route x : Route) : Prop :=
  ¬ (x.metric < route.metric ∧ policy ≠ .lowestLatency ∧ x.isDirect = route.isDirect) ∧
    x.routeKey ≠ route.routeKey

/-- What the scan does with a list, and where it stops. -/
inductive Scanned (policy : LoadBalance) (onlyIfAbsent : Bool) (now : Instant) (route : Route) :
    List TimedRoute → Scan → Prop where
  | rejected {pre post : List TimedRoute} {x : Route} {time : Instant}
      (passed : ∀ e ∈ pre, Passes policy route e.1)
      (beaten : x.metric < route.metric ∧ policy ≠ .lowestLatency ∧
        x.isDirect = route.isDirect) :
      Scanned policy onlyIfAbsent now route (pre ++ (x, time) :: post) .rejected
  | kept {pre post : List TimedRoute} {x : Route} {time : Instant}
      (passed : ∀ e ∈ pre, Passes policy route e.1) (key : x.routeKey = route.routeKey)
      (known : onlyIfAbsent = true ∨ x.metric = 0 ∧ route.metric ≠ 0) :
      Scanned policy onlyIfAbsent now route (pre ++ (x, time) :: post)
        (.kept (pre ++ (x, now) :: post))
  | updated {pre post : List TimedRoute} {x x' : Route} {time : Instant}
      (passed : ∀ e ∈ pre, Passes policy route e.1) (key : x.routeKey = route.routeKey)
      (unbeaten : ¬ (x.metric < route.metric ∧ policy ≠ .lowestLatency ∧
        x.isDirect = route.isDirect))
      (upgrade : x.metric = 0 → route.metric = 0)
      (changed : x' = { x with
        metric := route.metric
        rtt := if route.rtt ≠ DEFAULT_RTT then route.rtt else x.rtt }) :
      Scanned policy onlyIfAbsent now route (pre ++ (x, time) :: post)
        (.updated pre.length (pre ++ (x', now) :: post))
  | absent {l : List TimedRoute} (passed : ∀ e ∈ l, Passes policy route e.1) :
      Scanned policy onlyIfAbsent now route l .absent

/-- A list the scan went on past, with one more route in front. -/
theorem passes_cons {x : Route} {time : Instant} (hx : Passes policy route x)
    (h : ∀ e ∈ l, Passes policy route e.1) : ∀ e ∈ (x, time) :: l, Passes policy route e.1 := by
  intro e he
  rcases List.mem_cons.mp he with rfl | he
  · exact hx
  · exact h e he

/-- The scan does nothing else. -/
theorem scanned_scan : Scanned policy onlyIfAbsent now route l
    (scan policy onlyIfAbsent now route l) := by
  induction l with
  | nil => exact .absent (by simp)
  | cons e l ih =>
      rcases e with ⟨x, time⟩
      have hnil : ∀ e ∈ ([] : List TimedRoute), Passes policy route e.1 := by simp
      simp only [scan]
      split
      next beaten => exact .rejected hnil beaten
      next hbeaten =>
        split
        next key =>
          split
          next honly => exact .kept hnil key (Or.inl honly)
          next =>
            split
            next known => exact .kept hnil key (Or.inr (by simpa using known))
            next hdirect => exact .updated hnil key hbeaten (by simpa using hdirect) rfl
        next hkey =>
          have hx : Passes policy route x := ⟨hbeaten, hkey⟩
          generalize scan policy onlyIfAbsent now route l = outcome at ih
          cases ih with
          | rejected passed beaten => exact .rejected (passes_cons hx passed) beaten
          | kept passed key known => exact .kept (passes_cons hx passed) key known
          | updated passed key unbeaten upgrade changed =>
              exact .updated (passes_cons hx passed) key unbeaten upgrade changed
          | absent passed => exact .absent (passes_cons hx passed)

end Scan

namespace RouteTable

variable {ι : Type} [DecidableEq ι]

/-! ## What each operation does to the routes of a peer -/

theorem has_iff_listed {t : RouteTable ι} {p : ι} {k : RouteKey} {m : UInt8} :
    t.Has p k m ↔ Listed (t.timedRoutes p) k m := by
  simp only [Has, route, List.mem_map, Listed]
  constructor
  · intro h
    obtain ⟨r, ⟨e, he, rfl⟩, hk⟩ := h
    exact ⟨e, he, hk⟩
  · intro h
    obtain ⟨e, he, hk⟩ := h
    exact ⟨e.1, ⟨e, he, rfl⟩, hk⟩

@[simp] theorem timedRoutes_new (policy : LoadBalance) (p : ι) :
    (new policy : RouteTable ι).timedRoutes p = [] := rfl

theorem not_has_new (policy : LoadBalance) (p : ι) (k : RouteKey) (m : UInt8) :
    ¬ (new policy : RouteTable ι).Has p k m := by
  simp [has_iff_listed, Listed]

theorem timedRoutes_setRoutes (t : RouteTable ι) (id p : ι) (routes : List TimedRoute) :
    (t.setRoutes id routes).timedRoutes p = if p = id then routes else t.timedRoutes p := by
  simp only [timedRoutes, setRoutes, DashMap.get_insert]
  by_cases h : p = id <;> simp [h]

theorem has_setRoutes {t : RouteTable ι} {id p : ι} {routes : List TimedRoute} {k : RouteKey}
    {m : UInt8} :
    (t.setRoutes id routes).Has p k m ↔ if p = id then Listed routes k m else t.Has p k m := by
  rw [has_iff_listed, timedRoutes_setRoutes]
  split
  next h => rfl
  next h => rw [has_iff_listed]

@[simp] theorem has_updateReadTime {t : RouteTable ι} {now : Instant} {id p : ι} {key k : RouteKey}
    {m : UInt8} : (t.updateReadTime now id key).Has p k m ↔ t.Has p k m := by
  simp only [updateReadTime]
  split
  next routes h =>
    rw [has_setRoutes]
    split
    next hp => rw [hp, has_iff_listed, listed_touch h]
    next => rfl
  next => rfl

@[simp] theorem has_updateRtt {t : RouteTable ι} {id p : ι} {key k : RouteKey} {rtt : UInt32}
    {m : UInt8} : (t.updateRtt id key rtt).Has p k m ↔ t.Has p k m := by
  simp only [updateRtt]
  split
  next routes h =>
    rw [has_setRoutes]
    split
    next hp =>
      rw [hp, has_iff_listed, ← listed_measure h]
      exact listed_perm (resort_perm _ routes)
    next => rfl
  next => rfl

/-- Lookup moves at most the counter of the peer. -/
theorem getRouteById_snd (t : RouteTable ι) (id : ι) :
    (t.getRouteById id).2 = t ∨
      ∃ entry count, t.routeTable.get id = some entry ∧ (t.getRouteById id).2 =
        { t with routeTable := t.routeTable.insert id { entry with count := count } } := by
  simp only [getRouteById]
  split
  next => exact Or.inl rfl
  next entry hentry =>
    split
    next => exact Or.inl rfl
    next =>
      split
      next => split <;> exact Or.inl rfl
      next =>
        split
        next => exact Or.inr ⟨entry, entry.count + 1, hentry, rfl⟩
        next => exact Or.inl rfl

@[simp] theorem timedRoutes_getRouteById (t : RouteTable ι) (id p : ι) :
    (t.getRouteById id).2.timedRoutes p = t.timedRoutes p := by
  rcases getRouteById_snd t id with h | ⟨entry, count, hentry, h⟩
  · rw [h]
  · simp only [h, timedRoutes, DashMap.get_insert]
    split
    next hp => rw [hp, hentry]; rfl
    next => rfl

@[simp] theorem has_getRouteById {t : RouteTable ι} {id p : ι} {k : RouteKey} {m : UInt8} :
    (t.getRouteById id).2.Has p k m ↔ t.Has p k m := by
  simp only [has_iff_listed, timedRoutes_getRouteById]

/-- Which route of a peer's list `get_route_by_id` gives: the first direct one, else
the first one, or under round robin the one whose turn it is. -/
inductive Picked (policy : LoadBalance) (l : List Route) (r : Route) : Prop where
  | direct (first : l.find? Route.isDirect = some r)
  | head (relay : ∀ x ∈ l, x.metric ≠ 0) (turns : policy ≠ .roundRobin) (first : l.head? = some r)
  | turn (relay : ∀ x ∈ l, x.metric ≠ 0) (turns : policy = .roundRobin) (mem : r ∈ l)

theorem Picked.mem {policy : LoadBalance} {l : List Route} {r : Route} (h : Picked policy l r) :
    r ∈ l := by
  cases h with
  | direct first => exact List.mem_of_find?_eq_some first
  | head relay turns first => exact List.mem_of_head? first
  | turn relay turns mem => exact mem

/-- The direct routes of a list come up in its search. -/
theorem relay_of_find?_eq_none {l : List TimedRoute}
    (h : l.find? (fun e => e.1.isDirect) = none) : ∀ x ∈ l.map Prod.fst, x.metric ≠ 0 := by
  intro x hx
  obtain ⟨e, he, rfl⟩ := List.mem_map.mp hx
  have hrelay := List.find?_eq_none.mp h e he
  simpa using hrelay

/-- Lookup gives a route of the list, picked by the policy. -/
theorem picked_of_getRouteById {t : RouteTable ι} {id : ι} {r : Route}
    (h : (t.getRouteById id).1 = .ok r) : Picked t.loadBalance (t.route id) r := by
  simp only [route, timedRoutes]
  simp only [getRouteById] at h
  split at h
  next => cases h
  next entry hentry =>
    simp only [hentry, Option.elim_some]
    split at h
    next e he =>
      cases h
      exact .direct (by rw [List.find?_map]; exact congrArg (Option.map Prod.fst) he)
    next hnone =>
      have relay := relay_of_find?_eq_none hnone
      split at h
      next turns =>
        split at h
        next e rest hroutes =>
          cases h
          exact .head relay turns (by rw [hroutes]; rfl)
        next => cases h
      next turns =>
        split at h
        next e he =>
          cases h
          exact .turn relay (by simpa using turns)
            (List.mem_map.mpr ⟨e, List.mem_of_getElem? he, rfl⟩)
        next => cases h

/-- Lookup finds a route when there is one. -/
theorem getRouteById_isOk {t : RouteTable ι} {id : ι} (h : t.route id ≠ []) :
    ∃ r, (t.getRouteById id).1 = .ok r := by
  simp only [route, timedRoutes] at h
  simp only [getRouteById]
  cases hentry : t.routeTable.get id with
  | none => simp [hentry] at h
  | some entry =>
      simp only [hentry, Option.elim_some, ne_eq, List.map_eq_nil_iff] at h
      simp only
      split
      next e _ => exact ⟨e.1, rfl⟩
      next =>
        split
        next =>
          split
          next e _ _ => exact ⟨e.1, rfl⟩
          next hnil => exact absurd hnil h
        next =>
          have hlt : entry.count.toNat % entry.routes.length < entry.routes.length :=
            Nat.mod_lt _ (List.length_pos_of_ne_nil h)
          rw [List.getElem?_eq_getElem hlt]
          exact ⟨_, rfl⟩

/-- A route that lookup returns is one the peer has. -/
theorem has_of_getRouteById {t : RouteTable ι} {id : ι} {r : Route}
    (h : (t.getRouteById id).1 = .ok r) : t.Has id r.routeKey r.metric :=
  ⟨r, (picked_of_getRouteById h).mem, rfl, rfl⟩

/-! ## Adding a route -/

/-- What `add_route_` does to the table. -/
inductive Added (t : RouteTable ι) (now : Instant) (id : ι) (r : Route) (onlyIfAbsent : Bool) :
    RouteTable ι → Prop where
  | rejected {x : Route} (mem : x ∈ t.route id)
      (beaten : x.metric < r.metric ∧ t.loadBalance ≠ .lowestLatency ∧
        x.isDirect = r.isDirect) :
      Added t now id r onlyIfAbsent t
  | touched {pre post : List TimedRoute} {x : Route} {time : Instant}
      (list : t.timedRoutes id = pre ++ (x, time) :: post) (key : x.routeKey = r.routeKey)
      (known : onlyIfAbsent = true ∨ x.metric = 0 ∧ r.metric ≠ 0) :
      Added t now id r onlyIfAbsent (t.setRoutes id (pre ++ (x, now) :: post))
  | updated {pre post : List TimedRoute} {x x' : Route} {time : Instant}
      (list : t.timedRoutes id = pre ++ (x, time) :: post) (key : x.routeKey = r.routeKey)
      (overwrites : onlyIfAbsent = false)
      (unbeaten : ¬ (x.metric < r.metric ∧ t.loadBalance ≠ .lowestLatency ∧
        x.isDirect = r.isDirect))
      (upgrade : x.metric = 0 → r.metric = 0)
      (changed : x' = { x with
        metric := r.metric
        rtt := if r.rtt ≠ DEFAULT_RTT then r.rtt else x.rtt }) :
      Added t now id r onlyIfAbsent
        (t.setRoutes id (reorder t.loadBalance pre.length (pre ++ (x', now) :: post)))
  | pushed {index : DashMap RouteKey ι}
      (passed : ∀ e ∈ t.timedRoutes id, Passes t.loadBalance r e.1)
      (indexed : index =
        if r.isDirect then t.routeKeyTable.insert r.routeKey id else t.routeKeyTable) :
      Added t now id r onlyIfAbsent (({ t with routeKeyTable := index } : RouteTable ι).setRoutes id
        (reorder t.loadBalance (t.timedRoutes id).length (t.timedRoutes id ++ [(r, now)])))

/-- `add_route_` does nothing else. -/
theorem added_addRoute_ (t : RouteTable ι) (now : Instant) (id : ι) (r : Route)
    (onlyIfAbsent : Bool) :
    Added t now id r onlyIfAbsent (t.addRoute_ now id r onlyIfAbsent).2 := by
  simp only [addRoute_]
  split
  next routes htouch =>
    cases onlyIfAbsent with
    | false => cases htouch
    | true =>
        obtain ⟨pre, x, time, post, list, key, rfl⟩ := touch_eq_some htouch
        exact .touched list key (Or.inl rfl)
  next htouch =>
    have hscan : Scanned t.loadBalance onlyIfAbsent now r (t.timedRoutes id)
      (scan t.loadBalance onlyIfAbsent now r (t.timedRoutes id)) := scanned_scan
    generalize hl : t.timedRoutes id = l at hscan htouch
    generalize scan t.loadBalance onlyIfAbsent now r l = outcome at hscan
    cases hscan with
    | @rejected pre post x time passed beaten =>
        have mem : (x, time) ∈ t.timedRoutes id := by
          rw [hl]
          exact List.mem_append_right _ (.head _)
        exact .rejected (List.mem_map.mpr ⟨(x, time), mem, rfl⟩) beaten
    | kept passed key known => exact .touched hl key known
    | updated passed key unbeaten upgrade changed =>
        -- A known key was found by the touch when only absent routes are added.
        cases onlyIfAbsent with
        | false => exact .updated hl key rfl unbeaten upgrade changed
        | true =>
            rw [if_pos rfl, touch_eq_none] at htouch
            exact absurd key (htouch _ (List.mem_append_right _ (.head _)))
    | absent passed =>
        subst hl
        simp only [List.length_append, List.length_singleton, Nat.add_sub_cancel]
        by_cases hdirect : r.isDirect = true
        · simp only [if_pos hdirect]
          exact .pushed passed (if_pos hdirect).symm
        · simp only [if_neg hdirect]
          exact .pushed passed (if_neg hdirect).symm

/-- No route is shorter than a direct one. -/
theorem relay_of_lt {x r : Route} (h : x.metric < r.metric) : r.metric ≠ 0 := by
  intro hzero
  rw [hzero, UInt8.lt_iff_toNat_lt] at h
  exact Nat.not_lt_zero _ h

/-- The routes of every peer after a read time was set. -/
theorem has_touched {t : RouteTable ι} {id p : ι} {pre post : List TimedRoute} {x : Route}
    {time now : Instant} (list : t.timedRoutes id = pre ++ (x, time) :: post) {k : RouteKey}
    {m : UInt8} :
    (t.setRoutes id (pre ++ (x, now) :: post)).Has p k m ↔ t.Has p k m := by
  rw [has_setRoutes]
  split
  next hp => simp only [hp, has_iff_listed, list, listed_append, listed_cons]
  next => rfl

/-- The routes of every peer after a new route was pushed. -/
theorem has_pushed {t : RouteTable ι} {index : DashMap RouteKey ι} {now : Instant} {id p : ι}
    {r : Route} {n : Nat} {k : RouteKey} {m : UInt8} :
    (({ t with routeKeyTable := index } : RouteTable ι).setRoutes id
        (reorder t.loadBalance n (t.timedRoutes id ++ [(r, now)]))).Has p k m ↔
      t.Has p k m ∨ p = id ∧ k = r.routeKey ∧ m = r.metric := by
  have push : Listed (t.timedRoutes id ++ [(r, now)]) k m ↔
      Listed (t.timedRoutes id) k m ∨ k = r.routeKey ∧ m = r.metric := by
    rw [listed_append]
    simp only [Listed, List.mem_singleton, exists_eq_left, eq_comm]
  rw [has_setRoutes]
  split
  next hp =>
    rw [listed_perm (reorder_perm _ _ _), push, hp, has_iff_listed]
    simp
  next hp =>
    simp only [hp, false_and, or_false]
    rfl

/-- Every route after `add_route_` was there before, or is the one added. -/
theorem has_addRoute_ {t : RouteTable ι} {now : Instant} {id p : ι} {r : Route}
    {onlyIfAbsent : Bool} {k : RouteKey} {m : UInt8}
    (h : (t.addRoute_ now id r onlyIfAbsent).2.Has p k m) :
    t.Has p k m ∨ p = id ∧ k = r.routeKey ∧ m = r.metric := by
  have hadded := added_addRoute_ t now id r onlyIfAbsent
  generalize (t.addRoute_ now id r onlyIfAbsent).2 = t' at h hadded
  cases hadded with
  | rejected => exact Or.inl h
  | touched list => exact Or.inl ((has_touched list).mp h)
  | updated list key overwrites unbeaten upgrade changed =>
      rw [has_setRoutes] at h
      split at h
      next hp =>
        subst changed
        rw [listed_perm (reorder_perm _ _ _), listed_append, listed_cons] at h
        rw [hp, has_iff_listed, list, listed_append, listed_cons]
        rcases h with hpre | ⟨hk, hm⟩ | hpost
        · exact Or.inl (Or.inl hpre)
        · exact Or.inr ⟨rfl, by rw [← hk, ← key], hm.symm⟩
        · exact Or.inl (Or.inr (Or.inr hpost))
      next => exact Or.inl h
  | pushed passed indexed => exact has_pushed.mp h

/-- Every route after `add_route` was there before, or is the one added. -/
theorem has_addRoute {t : RouteTable ι} {now : Instant} {id p : ι} {r : Route} {k : RouteKey}
    {m : UInt8} (h : (t.addRoute now id r).2.Has p k m) :
    t.Has p k m ∨ p = id ∧ k = r.routeKey ∧ m = r.metric := has_addRoute_ h

/-- A direct route is always accepted. -/
theorem has_addRoute_self {t : RouteTable ι} {now : Instant} {id : ι} {r : Route}
    (hr : r.metric = 0) : (t.addRoute now id r).2.Has id r.routeKey 0 := by
  have hadded := added_addRoute_ t now id r false
  simp only [addRoute]
  generalize (t.addRoute_ now id r false).2 = t' at hadded
  cases hadded with
  | rejected mem beaten => exact absurd hr (relay_of_lt beaten.1)
  | touched list key known =>
      rcases known with honly | ⟨-, hrelay⟩
      · cases honly
      · exact absurd hr hrelay
  | updated list key overwrites unbeaten upgrade changed =>
      subst changed
      rw [has_setRoutes, if_pos rfl, listed_perm (reorder_perm _ _ _), listed_append, listed_cons]
      exact Or.inr (Or.inl ⟨key, hr⟩)
  | pushed passed indexed => exact has_pushed.mpr (Or.inr ⟨rfl, rfl, hr.symm⟩)

/-- A direct route is never lost to an `add_route_`. -/
theorem Has.addRoute_ {t : RouteTable ι} {now : Instant} {id p : ι} {r : Route}
    {onlyIfAbsent : Bool} {k : RouteKey} (h : t.Has p k 0) :
    (t.addRoute_ now id r onlyIfAbsent).2.Has p k 0 := by
  have hadded := added_addRoute_ t now id r onlyIfAbsent
  generalize (t.addRoute_ now id r onlyIfAbsent).2 = t' at hadded
  cases hadded with
  | rejected => exact h
  | touched list => exact (has_touched list).mpr h
  | updated list key overwrites unbeaten upgrade changed =>
      subst changed
      rw [has_setRoutes]
      split
      next hp =>
        rw [hp, has_iff_listed, list, listed_append, listed_cons] at h
        rw [listed_perm (reorder_perm _ _ _), listed_append, listed_cons]
        -- A direct route is only overwritten by a direct route.
        rcases h with hpre | ⟨hk, hzero⟩ | hpost
        · exact Or.inl hpre
        · exact Or.inr (Or.inl ⟨hk, upgrade hzero⟩)
        · exact Or.inr (Or.inr hpost)
      next => exact h
  | pushed passed indexed => exact has_pushed.mpr (Or.inl h)

/-- A direct route is never lost to an `add_route`. -/
theorem Has.addRoute {t : RouteTable ι} {now : Instant} {id p : ι} {r : Route} {k : RouteKey}
    (h : t.Has p k 0) : (t.addRoute now id r).2.Has p k 0 := h.addRoute_

/-! ## The peers of the table -/

theorem exists_of_mem {t : RouteTable ι} {p : ι} {e : TimedRoute} (h : e ∈ t.timedRoutes p) :
    t.exists_ p = true := by
  simp only [timedRoutes] at h
  simp only [exists_]
  cases hentry : t.routeTable.get p with
  | none => simp [hentry] at h
  | some entry => rfl

theorem exists_of_has {t : RouteTable ι} {p : ι} {k : RouteKey} {m : UInt8} (h : t.Has p k m) :
    t.exists_ p = true := by
  obtain ⟨e, he, -⟩ := has_iff_listed.mp h
  exact exists_of_mem he

theorem exists_setRoutes (t : RouteTable ι) (id p : ι) (routes : List TimedRoute) :
    (t.setRoutes id routes).exists_ p = (decide (p = id) || t.exists_ p) := by
  simp only [exists_, setRoutes, DashMap.get_insert]
  by_cases h : p = id <;> simp [h]

/-- To store the list of a peer that has one adds no peer. -/
theorem exists_setRoutes_of_mem {t : RouteTable ι} {id p : ι} {e : TimedRoute}
    {routes : List TimedRoute} (h : e ∈ t.timedRoutes id) :
    (t.setRoutes id routes).exists_ p = t.exists_ p := by
  rw [exists_setRoutes]
  by_cases hp : p = id
  · rw [hp, exists_of_mem h, Bool.or_true]
  · simp [hp]

@[simp] theorem exists_updateReadTime (t : RouteTable ι) (now : Instant) (id p : ι)
    (key : RouteKey) : (t.updateReadTime now id key).exists_ p = t.exists_ p := by
  simp only [updateReadTime]
  split
  next routes htouch =>
    obtain ⟨pre, x, time, post, hlist, -⟩ := touch_eq_some htouch
    exact exists_setRoutes_of_mem (e := (x, time)) (by simp [hlist])
  next => rfl

@[simp] theorem exists_updateRtt (t : RouteTable ι) (id p : ι) (key : RouteKey) (rtt : UInt32) :
    (t.updateRtt id key rtt).exists_ p = t.exists_ p := by
  simp only [updateRtt]
  split
  next routes hmeasure =>
    obtain ⟨pre, x, time, post, hlist, -⟩ := measure_eq_some hmeasure
    exact exists_setRoutes_of_mem (e := (x, time)) (by simp [hlist])
  next => rfl

@[simp] theorem exists_getRouteById (t : RouteTable ι) (id p : ι) :
    (t.getRouteById id).2.exists_ p = t.exists_ p := by
  rcases getRouteById_snd t id with h | ⟨entry, count, hentry, h⟩
  · rw [h]
  · simp only [h, exists_, DashMap.get_insert]
    split
    next hp => rw [hp, hentry]; rfl
    next => rfl

/-- `add_route` adds its peer and no other. -/
theorem exists_addRoute (t : RouteTable ι) (now : Instant) (id p : ι) (r : Route) :
    (t.addRoute now id r).2.exists_ p = (decide (p = id) || t.exists_ p) := by
  have hadded := added_addRoute_ t now id r false
  simp only [addRoute]
  generalize (t.addRoute_ now id r false).2 = t' at hadded
  cases hadded with
  | @rejected x mem beaten =>
      obtain ⟨e, he, -⟩ := List.mem_map.mp mem
      by_cases hp : p = id
      · rw [hp, exists_of_mem he, Bool.or_true]
      · simp [hp]
  | touched => exact exists_setRoutes t id p _
  | updated => exact exists_setRoutes t id p _
  | pushed => exact exists_setRoutes _ id p _

end RouteTable

end RustP2p
