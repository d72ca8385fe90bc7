import RustP2p.Core.RouteListing
import Mathlib.Data.List.MinMax

/-!
# Idle routes

`IdleRouteManager` of `idle.rs` waits for a route that nothing was read from for
`read_idle`.  Its loop looks at the oldest route of the table.  If that route is
not idle yet, it sleeps until it would be, and looks again.

`oldest_route` is a minimum over all routes of all peers (`oldestRoute_eq`), so
the loop returns exactly when some route is idle (`turn_idle_iff`).

A `Watched` is a manager with the clock.  Its events are the calls on the table,
which others hold as well, a change of the iteration order, and the turns of the
loop.  The clock never goes back, so a route that was read from at some time is
not idle before `read_idle` has passed (`idle_detection_exact`).
-/

namespace RustP2p

/-- `std::time::Duration`, in the ticks of `Instant`, nanoseconds. -/
abbrev Duration := Nat

/-- `Duration::from_millis(1)`. -/
def MILLISECOND : Duration := 1000000

/-- The subtraction of durations, `none` for a panic. -/
def durationSub (a b : Duration) : Option Duration := if b ≤ a then some (a - b) else none

namespace RouteTable

variable {ι : Type}

/-! ## The oldest route -/

/-- `RouteTable::is_empty`. -/
def isEmpty (t : RouteTable ι) : Bool := t.routeTable.entries.isEmpty

/-- The body of the loops of `oldest_route`. -/
def older (option : Option (ι × Route × Instant)) (peerId : ι) (e : TimedRoute) :
    Option (ι × Route × Instant) :=
  match option with
  | some (_, _, timestamp) => if timestamp > e.2 then some (peerId, e.1, e.2) else option
  | none => some (peerId, e.1, e.2)

/-- `RouteTable::oldest_route`. -/
def oldestRoute (t : RouteTable ι) : Option (ι × Route × Instant) :=
  if t.isEmpty then none
  else t.routeTable.pairs.foldl
    (fun option e => e.2.routes.foldl (fun option r => older option e.1 r) option) none

/-- The oldest route is the first of those with the least read time. -/
theorem oldestRoute_eq (t : RouteTable ι) :
    t.oldestRoute = t.timedHoldings.argmin fun h => h.2.2 := by
  simp only [oldestRoute, foldl_pairs]
  split
  next hempty =>
    have hnil : t.timedHoldings = [] := by
      rw [timedHoldings, DashMap.pairs, List.isEmpty_iff.mp hempty]
      rfl
    rw [hnil, List.argmin_nil]
  next =>
    rw [List.argmin]
    congr 1
    funext option h
    cases option with
    | none => rfl
    | some oldest => rfl

variable [DecidableEq ι]

theorem oldestRoute_eq_none {t : RouteTable ι} :
    t.oldestRoute = none ↔ ∀ p, t.timedRoutes p = [] := by
  rw [oldestRoute_eq, List.argmin_eq_none, List.eq_nil_iff_forall_not_mem]
  constructor
  · intro h p
    rw [List.eq_nil_iff_forall_not_mem]
    intro e he
    exact h (p, e) (mem_timedHoldings.mpr he)
  · intro h x hx
    have hmem := mem_timedHoldings.mp hx
    rw [h x.1] at hmem
    cases hmem

theorem mem_of_oldestRoute {t : RouteTable ι} {p : ι} {r : Route} {instant : Instant}
    (h : t.oldestRoute = some (p, r, instant)) : (r, instant) ∈ t.timedRoutes p := by
  rw [oldestRoute_eq] at h
  exact mem_timedHoldings.mp (List.argmin_mem h)

theorem oldestRoute_le {t : RouteTable ι} {p : ι} {r : Route} {instant : Instant}
    (h : t.oldestRoute = some (p, r, instant)) {q : ι} {e : TimedRoute}
    (he : e ∈ t.timedRoutes q) : instant ≤ e.2 := by
  rw [oldestRoute_eq] at h
  exact List.le_of_mem_argmin (mem_timedHoldings.mpr he) h

end RouteTable

/-! ## The manager -/

/-- `IdleRouteManager`.  The table is shared. -/
structure IdleRouteManager (ι : Type) where
  readIdle : Duration
  routeTable : RouteTable ι

/-- What one turn of the loop of `next_idle` ends with. -/
inductive IdleTurn (ι : Type) where
  | idle (peerId : ι) (route : Route) (instant : Instant)
  | sleep (sleepFor : Duration)
deriving DecidableEq, Repr

namespace IdleRouteManager

variable {ι : Type}

/-- One turn of the loop of `next_idle`, `none` for a panic. -/
def turn (m : IdleRouteManager ι) (now : Instant) : Option (IdleTurn ι) :=
  match m.routeTable.oldestRoute with
  | some (peerId, route, instant) =>
      let elapsed := now - instant
      if elapsed ≥ m.readIdle then some (.idle peerId route instant)
      else (durationSub m.readIdle elapsed).map fun sleepFor => .sleep (max sleepFor MILLISECOND)
  | none => some (.sleep (max (m.readIdle / 3) MILLISECOND))

/-- The subtraction never underflows. -/
theorem turn_ne_none (m : IdleRouteManager ι) (now : Instant) : m.turn now ≠ none := by
  simp only [turn]
  split
  next =>
    split
    next => simp
    next h =>
      rw [durationSub, if_pos (Nat.le_of_not_le h)]
      simp
  next => simp

/-- The route of a turn is the oldest one, and it is idle. -/
theorem turn_eq_idle {m : IdleRouteManager ι} {now : Instant} {p : ι} {r : Route}
    {instant : Instant} (h : m.turn now = some (.idle p r instant)) :
    m.routeTable.oldestRoute = some (p, r, instant) ∧ m.readIdle ≤ now - instant := by
  simp only [turn] at h
  split at h
  next peerId route time holdest =>
    split at h
    next hidle =>
      cases h
      exact ⟨holdest, hidle⟩
    next =>
      obtain ⟨d, -, hd⟩ := Option.map_eq_some_iff.mp h
      cases hd
  next => cases h

variable [DecidableEq ι]

/-- `IdleRouteManager::delay`. -/
def delay (m : IdleRouteManager ι) (now : Instant) (peerId : ι) (routeKey : RouteKey) :
    IdleRouteManager ι :=
  { m with routeTable := m.routeTable.updateReadTime now peerId routeKey }

/-- `IdleRouteManager::remove_route`. -/
def removeRoute (m : IdleRouteManager ι) (peerId : ι) (routeKey : RouteKey) :
    IdleRouteManager ι :=
  { m with routeTable := m.routeTable.removeRoute peerId routeKey }

/-- A turn returns a route exactly if one is idle. -/
theorem turn_idle_iff (m : IdleRouteManager ι) (now : Instant) :
    (∃ p r instant, m.turn now = some (.idle p r instant)) ↔
      ∃ p, ∃ e ∈ m.routeTable.timedRoutes p, m.readIdle ≤ now - e.2 := by
  constructor
  · rintro ⟨p, r, instant, h⟩
    obtain ⟨holdest, hidle⟩ := turn_eq_idle h
    exact ⟨p, (r, instant), RouteTable.mem_of_oldestRoute holdest, hidle⟩
  · rintro ⟨q, e, he, hidle⟩
    cases holdest : m.routeTable.oldestRoute with
    | none =>
        rw [RouteTable.oldestRoute_eq_none.mp holdest q] at he
        cases he
    | some oldest =>
        rcases oldest with ⟨p, r, instant⟩
        have hle := RouteTable.oldestRoute_le holdest he
        refine ⟨p, r, instant, ?_⟩
        simp only [turn, holdest]
        exact if_pos (Nat.le_trans hidle (Nat.sub_le_sub_left hle now))

end IdleRouteManager

/-! ## Read times over a call -/

/-- The time a call reads from the clock. -/
def RouteOp.now {ι : Type} : RouteOp ι → Option Instant
  | .addRoute now _ _ => some now
  | .addRouteIfAbsent now _ _ => some now
  | .updateReadTime now _ _ => some now
  | _ => none

namespace RouteTable

variable {ι : Type}

/-- The read time of the route was kept, or set by the call. -/
def Dated (op : RouteOp ι) (l : List TimedRoute) (e : TimedRoute) : Prop :=
  (∃ e₀ ∈ l, e₀.1.routeKey = e.1.routeKey ∧ e₀.2 = e.2) ∨ op.now = some e.2

variable {op : RouteOp ι} {l l' : List TimedRoute}

theorem Dated.of_mem {e : TimedRoute} (h : e ∈ l) : Dated op l e := Or.inl ⟨e, h, rfl, rfl⟩

/-- One route of a list was changed, and its read time was set. -/
theorem dated_replace {pre post : List TimedRoute} {x x' : Route} {time now : Instant}
    (hnow : op.now = some now) :
    ∀ e ∈ pre ++ (x', now) :: post, Dated op (pre ++ (x, time) :: post) e := by
  intro e he
  rcases List.mem_append.mp he with hpre | hpost
  · exact .of_mem (List.mem_append_left _ hpre)
  · rcases List.mem_cons.mp hpost with rfl | hpost
    · exact Or.inr hnow
    · exact .of_mem (List.mem_append_right _ (List.mem_cons_of_mem _ hpost))

variable [DecidableEq ι]

/-- A list that is stored for its peer has dated routes, and so have the others. -/
theorem dated_setRoutes {t : RouteTable ι} {id p : ι}
    (h : ∀ e ∈ l, Dated op (t.timedRoutes id) e) :
    ∀ e ∈ (t.setRoutes id l).timedRoutes p, Dated op (t.timedRoutes p) e := by
  intro e he
  rw [timedRoutes_setRoutes] at he
  split at he
  next hp => rw [hp]; exact h e he
  next => exact .of_mem he

theorem dated_addRoute_ (t : RouteTable ι) (now : Instant) (id : ι) (r : Route)
    (onlyIfAbsent : Bool) (hnow : op.now = some now) (p : ι) :
    ∀ e ∈ (t.addRoute_ now id r onlyIfAbsent).2.timedRoutes p, Dated op (t.timedRoutes p) e := by
  have hadded := added_addRoute_ t now id r onlyIfAbsent
  generalize (t.addRoute_ now id r onlyIfAbsent).2 = t' at hadded
  cases hadded with
  | rejected => exact fun e he => .of_mem he
  | touched list =>
      refine dated_setRoutes ?_
      rw [list]
      exact dated_replace hnow
  | updated list =>
      refine dated_setRoutes ?_
      intro e he
      rw [(reorder_perm _ _ _).mem_iff] at he
      rw [list]
      exact dated_replace hnow e he
  | pushed passed indexed =>
      refine dated_setRoutes (t := { t with routeKeyTable := _ }) ?_
      intro e he
      rw [(reorder_perm _ _ _).mem_iff, List.mem_append, List.mem_singleton] at he
      rcases he with hold | rfl
      · exact .of_mem hold
      · exact Or.inr hnow

/-- A call changes read times only to its own time. -/
theorem dated_apply (t : RouteTable ι) (op : RouteOp ι) (p : ι) :
    ∀ e ∈ (t.apply op).timedRoutes p, Dated op (t.timedRoutes p) e := by
  cases op with
  | addRoute now id r => exact dated_addRoute_ t now id r false rfl p
  | addRouteIfAbsent now id r => exact dated_addRoute_ t now id r true rfl p
  | updateReadTime now id key =>
      simp only [apply, updateReadTime]
      split
      next routes htouch =>
        obtain ⟨pre, x, time, post, list, -, rfl⟩ := touch_eq_some htouch
        refine dated_setRoutes ?_
        rw [list]
        exact dated_replace rfl
      next => exact fun e he => .of_mem he
  | updateRtt id key rtt =>
      simp only [apply, updateRtt]
      split
      next routes hmeasure =>
        obtain ⟨pre, x, time, post, list, -, rfl⟩ := measure_eq_some hmeasure
        refine dated_setRoutes ?_
        intro e he
        -- Whatever the order, only the round trip of `x` has changed.
        have hmem : e ∈ pre ++ ({ x with rtt := rtt }, time) :: post :=
          (resort_perm _ _).mem_iff.mp he
        rw [list]
        rcases List.mem_append.mp hmem with hpre | hpost
        · exact .of_mem (List.mem_append_left _ hpre)
        · rcases List.mem_cons.mp hpost with rfl | hpost
          · exact Or.inl ⟨(x, time), List.mem_append_right _ (.head _), rfl, rfl⟩
          · exact .of_mem (List.mem_append_right _ (List.mem_cons_of_mem _ hpost))
      next => exact fun e he => .of_mem he
  | getRouteById id =>
      intro e he
      rw [apply, timedRoutes_getRouteById] at he
      exact .of_mem he
  | removeRoute id key =>
      intro e he
      rw [apply, timedRoutes_removeRoute] at he
      split at he
      next hp => rw [hp]; exact .of_mem (List.mem_filter.mp he).1
      next => exact .of_mem he
  | removeAll id =>
      intro e he
      rw [apply, timedRoutes_removeAll] at he
      split at he
      next => cases he
      next => exact .of_mem he

/-- The route of a peer with this key was not read from before that time. -/
def FreshSince (t : RouteTable ι) (p : ι) (key : RouteKey) (time : Instant) : Prop :=
  ∀ e ∈ t.timedRoutes p, e.1.routeKey = key → time ≤ e.2

/-- A refreshed route is fresh, as no other route of the peer has its key. -/
theorem freshSince_updateReadTime {t : RouteTable ι} {p : ι}
    (hkeys : (keys (t.timedRoutes p)).Nodup) (now : Instant) (key : RouteKey) :
    (t.updateReadTime now p key).FreshSince p key now := by
  intro e he hkey
  simp only [updateReadTime] at he
  split at he
  next routes htouch =>
    obtain ⟨pre, x, time, post, list, hx, rfl⟩ := touch_eq_some htouch
    rw [timedRoutes_setRoutes, if_pos rfl] at he
    rw [list, keys_append_cons, List.nodup_middle, List.nodup_cons, List.mem_append] at hkeys
    rcases List.mem_append.mp he with hpre | hpost
    · exact absurd (Or.inl (List.mem_map.mpr ⟨e, hpre, hkey.trans hx.symm⟩)) hkeys.1
    · rcases List.mem_cons.mp hpost with rfl | hpost
      · exact Nat.le_refl _
      · exact absurd (Or.inr (List.mem_map.mpr ⟨e, hpost, hkey.trans hx.symm⟩)) hkeys.1
  next hnone => exact absurd hkey (touch_eq_none.mp hnone e he)

/-- Calls at later times keep a route fresh. -/
theorem FreshSince.apply {t : RouteTable ι} {p : ι} {key : RouteKey} {time : Instant}
    (h : t.FreshSince p key time) {op : RouteOp ι} (hnow : ∀ now ∈ op.now, time ≤ now) :
    (t.apply op).FreshSince p key time := by
  intro e he hkey
  rcases dated_apply t op p e he with ⟨e₀, hmem, hsame, htime⟩ | hset
  · rw [← htime]
    exact h e₀ hmem (hsame.trans hkey)
  · exact hnow _ hset

end RouteTable

/-! ## The clock -/

/-- A manager and the clock. -/
structure Watched (ι : Type) where
  manager : IdleRouteManager ι
  clock : Instant

/-- What happens around a manager. -/
inductive IdleEvent (ι : Type) where
  /-- A call on the table, by the manager or by another holder. -/
  | call (op : RouteOp ι)
  /-- The map is iterated in another order from now on. -/
  | reorder (routeTable : DashMap ι PeerRoutes)
  /-- `next_idle` evaluates the oldest route. -/
  | turn (now : Instant)

namespace Watched

variable {ι : Type} [DecidableEq ι]

/-- A manager of a new table. -/
def start (policy : LoadBalance) (readIdle : Duration) : Watched ι := ⟨⟨readIdle, .new policy⟩, 0⟩

/-- A step at a time that is not over yet.  A turn has no `await` between the look at the table
and the clock. -/
def step (s : Watched ι) : IdleEvent ι → Option (Watched ι)
  | .call op =>
      let now := op.now.getD s.clock
      if s.clock ≤ now then
        some ⟨{ s.manager with routeTable := s.manager.routeTable.apply op }, now⟩
      else none
  | .reorder routeTable =>
      if routeTable.entries.Perm s.manager.routeTable.routeTable.entries then
        some { s with manager.routeTable.routeTable := routeTable }
      else none
  | .turn now => if s.clock ≤ now then (s.manager.turn now).map fun _ => { s with clock := now }
      else none

variable {s s' : Watched ι} {e : IdleEvent ι}

/-- The calls of the manager itself are among the calls on the table. -/
theorem step_delay {now : Instant} (h : s.clock ≤ now) (p : ι) (key : RouteKey) :
    s.step (.call (.updateReadTime now p key)) = some ⟨s.manager.delay now p key, now⟩ := if_pos h

@[inherit_doc step_delay]
theorem step_removeRoute (s : Watched ι) (p : ι) (key : RouteKey) :
    s.step (.call (.removeRoute p key)) = some ⟨s.manager.removeRoute p key, s.clock⟩ :=
  if_pos (Nat.le_refl _)

/-- What a step does to the clock and the table. -/
inductive Move (s : Watched ι) : IdleEvent ι → Watched ι → Prop where
  | call {op : RouteOp ι} {now : Instant} (later : s.clock ≤ now)
      (reads : ∀ t ∈ op.now, t = now) :
      Move s (.call op) ⟨{ s.manager with routeTable := s.manager.routeTable.apply op }, now⟩
  | reorder {routeTable : DashMap ι PeerRoutes}
      (perm : routeTable.entries.Perm s.manager.routeTable.routeTable.entries) :
      Move s (.reorder routeTable) { s with manager.routeTable.routeTable := routeTable }
  | turn {now : Instant} (later : s.clock ≤ now) : Move s (.turn now) { s with clock := now }

theorem Move.of_step (h : s.step e = some s') : Move s e s' := by
  cases e with
  | call op =>
      simp only [step] at h
      split at h
      next hlater =>
        cases h
        refine .call hlater ?_
        intro t ht
        rw [Option.mem_def.mp ht, Option.getD_some]
      next => cases h
  | reorder routeTable =>
      simp only [step] at h
      split at h
      next hperm => cases h; exact .reorder hperm
      next => cases h
  | turn now =>
      simp only [step] at h
      split at h
      next hlater =>
        obtain ⟨turn, -, rfl⟩ := Option.map_eq_some_iff.mp h
        exact .turn hlater
      next => cases h

/-- The lists of a table do not depend on its order. -/
theorem timedRoutes_reorder {t : RouteTable ι} {routeTable : DashMap ι PeerRoutes}
    (hperm : routeTable.entries.Perm t.routeTable.entries) (p : ι) :
    ({ t with routeTable := routeTable } : RouteTable ι).timedRoutes p = t.timedRoutes p := by
  simp only [RouteTable.timedRoutes, DashMap.get_perm hperm p]

/-- The keys of every list are distinct. -/
def DistinctKeys (s : Watched ι) : Prop :=
  ∀ p, (RouteTable.keys (s.manager.routeTable.timedRoutes p)).Nodup

theorem Move.distinctKeys (h : Move s e s') (hs : s.DistinctKeys) : s'.DistinctKeys := by
  intro p
  cases h with
  | call => exact (RouteTable.change_apply _ _ p).nodup_keys (hs p)
  | reorder perm =>
      simp only [timedRoutes_reorder perm]
      exact hs p
  | turn => exact hs p

/-- The route is fresh since a time that has passed. -/
def Refreshed (p : ι) (key : RouteKey) (time : Instant) (s : Watched ι) : Prop :=
  time ≤ s.clock ∧ s.manager.routeTable.FreshSince p key time

theorem Move.refreshed {p : ι} {key : RouteKey} {time : Instant} (h : Move s e s')
    (hs : Refreshed p key time s) : Refreshed p key time s' := by
  obtain ⟨hclock, hfresh⟩ := hs
  cases h with
  | call later reads =>
      have hnow := Nat.le_trans hclock later
      refine ⟨hnow, hfresh.apply ?_⟩
      intro t ht
      rw [reads t ht]
      exact hnow
  | reorder perm =>
      refine ⟨hclock, ?_⟩
      simp only [RouteTable.FreshSince, timedRoutes_reorder perm]
      exact hfresh
  | turn later => exact ⟨Nat.le_trans hclock later, hfresh⟩

theorem Move.readIdle (h : Move s e s') : s'.manager.readIdle = s.manager.readIdle := by
  cases h <;> rfl

/-- A route that was refreshed is not idle before `read_idle` has passed. -/
theorem refreshed_not_idle {policy : LoadBalance} {readIdle : Duration}
    {pre mid : List (IdleEvent ι)} {time now instant : Instant} {p : ι} {r : Route}
    {m m' : Watched ι}
    (hm : Transition.run step (start policy readIdle)
      (pre ++ .call (.updateReadTime time p r.routeKey) :: mid) = some m)
    (hm' : m.step (.turn now) = some m') (hidle : m.manager.turn now = some (.idle p r instant)) :
    time + readIdle ≤ now := by
  obtain ⟨before, hbefore, hmid⟩ : ∃ before, Transition.run step (start policy readIdle) pre =
      some before ∧ Transition.run step before
        (.call (.updateReadTime time p r.routeKey) :: mid) = some m := by
    rw [Transition.run_append] at hm
    exact Option.bind_eq_some_iff.mp hm
  obtain ⟨refreshed, hrefresh, hmid⟩ := Option.bind_eq_some_iff.mp hmid
  have hkeys : before.DistinctKeys := by
    refine Transition.run_invariant (I := DistinctKeys)
      (fun _ _ _ hstep => (Move.of_step hstep).distinctKeys) hbefore ?_
    intro q
    exact List.nodup_nil
  have hfresh : Refreshed p r.routeKey time refreshed := by
    cases Move.of_step hrefresh with
    | call later reads =>
        rw [← reads time rfl]
        exact ⟨Nat.le_refl _, RouteTable.freshSince_updateReadTime (hkeys p) time r.routeKey⟩
  have hlast := Transition.run_invariant (I := Refreshed p r.routeKey time)
    (fun _ _ _ hstep => (Move.of_step hstep).refreshed) hmid hfresh
  have hreadIdle : m.manager.readIdle = readIdle :=
    Transition.run_invariant (I := fun s => s.manager.readIdle = readIdle)
      (fun _ _ _ hstep hs => (Move.of_step hstep).readIdle.trans hs) hm rfl
  obtain ⟨holdest, helapsed⟩ := IdleRouteManager.turn_eq_idle hidle
  have htime := hlast.2 (r, instant) (RouteTable.mem_of_oldestRoute holdest) rfl
  have hlater : m.clock ≤ now := by
    cases Move.of_step hm' with
    | turn later => exact later
  have hclock := hlast.1
  rw [hreadIdle] at helapsed
  simp only [Duration, Instant] at *
  omega

/-- `oldest_route` gives a route with the least read time of the table, and none only if there
is no route.  A turn of `next_idle` never panics.  It returns a route exactly if some route is
idle for `read_idle`, and the route it returns is.  In a run of the calls on the table and the
turns, no turn returns a route before `read_idle` has passed since a refresh. -/
theorem idle_detection_exact :
    (∀ t : RouteTable ι, (t.oldestRoute = none ↔ ∀ p, t.timedRoutes p = []) ∧
      ∀ p r instant, t.oldestRoute = some (p, r, instant) →
        (r, instant) ∈ t.timedRoutes p ∧ ∀ q, ∀ e ∈ t.timedRoutes q, instant ≤ e.2) ∧
    (∀ (m : IdleRouteManager ι) (now : Instant), m.turn now ≠ none ∧
      ((∃ p r instant, m.turn now = some (.idle p r instant)) ↔
        ∃ p, ∃ e ∈ m.routeTable.timedRoutes p, m.readIdle ≤ now - e.2) ∧
      ∀ p r instant, m.turn now = some (.idle p r instant) →
        (r, instant) ∈ m.routeTable.timedRoutes p ∧ m.readIdle ≤ now - instant) ∧
    ∀ (policy : LoadBalance) (readIdle : Duration) (pre mid : List (IdleEvent ι)) (m m' : Watched ι)
      (time now instant : Instant) (p : ι) (r : Route),
      Transition.run step (start policy readIdle)
        (pre ++ .call (.updateReadTime time p r.routeKey) :: mid) = some m →
      m.step (.turn now) = some m' → m.manager.turn now = some (.idle p r instant) →
      time + readIdle ≤ now := by
  refine ⟨?_, ?_, ?_⟩
  · intro t
    refine ⟨RouteTable.oldestRoute_eq_none, ?_⟩
    intro p r instant h
    exact ⟨RouteTable.mem_of_oldestRoute h, fun q e he => RouteTable.oldestRoute_le h he⟩
  · intro m now
    refine ⟨m.turn_ne_none now, m.turn_idle_iff now, ?_⟩
    intro p r instant h
    obtain ⟨holdest, hidle⟩ := IdleRouteManager.turn_eq_idle h
    exact ⟨RouteTable.mem_of_oldestRoute holdest, hidle⟩
  · intro policy readIdle pre mid m m' time now instant p r hm hm' hidle
    exact refreshed_not_idle hm hm' hidle

/-- A route is added, read from seven ticks later, and returned ten ticks after that. -/
theorem idle_detection_exact_refreshed :
    ∃ m m', Transition.run step (start (ι := Nat) .minHopLowestLatency 10)
        [.call (.addRoute 0 1 ⟨RouteTable.pathOne, 0, 9999⟩),
          .call (.updateReadTime 7 1 RouteTable.pathOne), .turn 8] = some m ∧
      m.step (.turn 17) = some m' ∧
      m.manager.turn 17 = some (.idle 1 ⟨RouteTable.pathOne, 0, 9999⟩ 7) ∧ 7 + 10 ≤ 17 := by
  obtain ⟨m, hm, hturn, m', hm', -⟩ :
      ∃ m, Transition.run step (start (ι := Nat) .minHopLowestLatency 10)
          [.call (.addRoute 0 1 ⟨RouteTable.pathOne, 0, 9999⟩),
            .call (.updateReadTime 7 1 RouteTable.pathOne), .turn 8] = some m ∧
        m.manager.turn 17 = some (.idle 1 ⟨RouteTable.pathOne, 0, 9999⟩ 7) ∧
        ∃ m' ∈ m.step (.turn 17), m'.clock = 17 := by
    decide
  exact ⟨m, m', hm, hm', hturn, idle_detection_exact.2.2 _ _ [_] [_] m m' 7 17 7 1
    ⟨RouteTable.pathOne, 0, 9999⟩ hm hm' hturn⟩

end Watched

end RustP2p
