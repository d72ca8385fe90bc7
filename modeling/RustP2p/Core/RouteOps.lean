import RustP2p.Core.RouteTable
import RustP2p.Lib.Transition

/-!
# Histories of a route table

A `RouteOp` is one call on a route table, and `runOps` replays a list of calls.
The table is never changed in another way, so what holds after every list of
calls on an empty table holds of every table the program can have.

`change_apply` says once what a call can do to the list of the peer it is for,
with the guards of each case.  The lists of the other peers stay as they are.
The invariants below and in the next two modules are read off it: the keys of a
list are distinct, no entry is empty, and a route that is not removed keeps its
key and is not downgraded.
-/

namespace RustP2p

/-- A call on a route table. -/
inductive RouteOp (ι : Type) where
  | addRoute (now : Instant) (id : ι) (route : Route)
  | addRouteIfAbsent (now : Instant) (id : ι) (route : Route)
  | updateReadTime (now : Instant) (id : ι) (key : RouteKey)
  | updateRtt (id : ι) (key : RouteKey) (rtt : UInt32)
  | getRouteById (id : ι)
  | removeRoute (id : ι) (key : RouteKey)
  | removeAll (id : ι)
deriving DecidableEq, Repr

/-- The route a call offers to the table, and its peer. -/
def RouteOp.offers {ι : Type} : RouteOp ι → Option (ι × Route)
  | .addRoute _ id route => some (id, route)
  | .addRouteIfAbsent _ id route => some (id, route)
  | _ => none

namespace RouteTable

variable {ι : Type}

/-! ## What a call can do to a list -/

/-- What a call does to the list of the peer `p`. -/
inductive Change (policy : LoadBalance) (p : ι) :
    RouteOp ι → List TimedRoute → List TimedRoute → Prop where
  | same {op : RouteOp ι} {l : List TimedRoute} : Change policy p op l l
  | touched {op : RouteOp ι} {pre post : List TimedRoute} {x : Route} {time now : Instant} :
      Change policy p op (pre ++ (x, time) :: post) (pre ++ (x, now) :: post)
  | updated {now : Instant} {r x x' : Route} {pre post : List TimedRoute} {time : Instant}
      (key : x.routeKey = r.routeKey)
      (unbeaten : ¬ (x.metric < r.metric ∧ policy ≠ .lowestLatency ∧ x.isDirect = r.isDirect))
      (upgrade : x.metric = 0 → r.metric = 0)
      (changed : x' = { x with
        metric := r.metric
        rtt := if r.rtt ≠ DEFAULT_RTT then r.rtt else x.rtt }) :
      Change policy p (.addRoute now p r) (pre ++ (x, time) :: post)
        (reorder policy pre.length (pre ++ (x', now) :: post))
  | pushed {op : RouteOp ι} {now : Instant} {r : Route} {l : List TimedRoute}
      (offers : op.offers = some (p, r)) (passed : ∀ e ∈ l, Passes policy r e.1) :
      Change policy p op l (reorder policy l.length (l ++ [(r, now)]))
  | measured {x : Route} {rtt : UInt32} {pre post : List TimedRoute} {time : Instant} :
      Change policy p (.updateRtt p x.routeKey rtt) (pre ++ (x, time) :: post)
        (if policy = .lowestLatency
          then (pre ++ ({ x with rtt := rtt }, time) :: post).insertionSort
            fun x y => x.1.rtt ≤ y.1.rtt
          else pre ++ ({ x with rtt := rtt }, time) :: post)
  | removed {key : RouteKey} {l : List TimedRoute} :
      Change policy p (.removeRoute p key) l (l.filter fun e => e.1.routeKey ≠ key)
  | cleared {l : List TimedRoute} : Change policy p (.removeAll p) l []

/-! ## Distinct keys -/

/-- The keys of a list, in order. -/
def keys (l : List TimedRoute) : List RouteKey := l.map fun e => e.1.routeKey

theorem keys_append_cons (pre post : List TimedRoute) (x : Route) (time : Instant) :
    keys (pre ++ (x, time) :: post) = keys pre ++ x.routeKey :: keys post := by
  simp only [keys, List.map_append, List.map_cons]

theorem keys_perm {l l' : List TimedRoute} (h : l'.Perm l) : (keys l').Perm (keys l) := h.map _

/-- A change keeps the keys distinct. -/
theorem Change.nodup_keys {policy : LoadBalance} {p : ι} {op : RouteOp ι} {l l' : List TimedRoute}
    (h : Change policy p op l l') (hl : (keys l).Nodup) : (keys l').Nodup := by
  cases h with
  | same => exact hl
  | touched =>
      rw [keys_append_cons] at hl ⊢
      exact hl
  | updated key unbeaten upgrade changed =>
      subst changed
      rw [(keys_perm (reorder_perm _ _ _)).nodup_iff, keys_append_cons]
      rw [keys_append_cons] at hl
      exact hl
  | @pushed _ now r l offers passed =>
      rw [(keys_perm (reorder_perm _ _ _)).nodup_iff]
      have hfresh : r.routeKey ∉ keys l := by
        intro hmem
        obtain ⟨e, he, hkey⟩ := List.mem_map.mp hmem
        exact (passed e he).2 hkey
      rw [keys_append_cons, List.nodup_middle, List.nodup_cons]
      exact ⟨by simpa [keys] using hfresh, by simpa [keys] using hl⟩
  | measured =>
      rw [keys_append_cons] at hl
      rw [(keys_perm (resort_perm _ _)).nodup_iff, keys_append_cons]
      exact hl
  | removed => exact hl.sublist (List.filter_sublist.map _)
  | cleared => exact List.nodup_nil

/-- With distinct keys there is one metric for a key. -/
theorem listed_unique {l : List TimedRoute} (hl : (keys l).Nodup) {k : RouteKey} {m m' : UInt8}
    (h : Listed l k m) (h' : Listed l k m') : m = m' := by
  obtain ⟨e, he, rfl, rfl⟩ := h
  obtain ⟨e', he', hkey, rfl⟩ := h'
  rw [List.inj_on_of_nodup_map hl he he' hkey.symm]

/-! ## A route that is not removed -/

/-- A metric that takes the place of `x`'s is not above it, when `x` does not beat it
and is not downgraded. -/
theorem le_of_unbeaten {x r : Route} (upgrade : x.metric = 0 → r.metric = 0)
    (unbeaten : x.metric < r.metric → x.isDirect ≠ r.isDirect) : r.metric ≤ x.metric := by
  rw [← UInt8.not_lt]
  intro hlt
  have hx : x.metric ≠ 0 := by
    intro hzero
    rw [hzero, upgrade hzero] at hlt
    exact absurd hlt (by decide)
  exact unbeaten hlt (by simp [Route.isDirect, hx, relay_of_lt hlt])

/-- A call other than a removal keeps a route.  A direct route stays direct, and
without the latency policy no metric goes up. -/
theorem Change.listed {policy : LoadBalance} {p : ι} {op : RouteOp ι} {l l' : List TimedRoute}
    (h : Change policy p op l l') {k : RouteKey} {m : UInt8} (hl : Listed l k m)
    (hremove : op ≠ .removeRoute p k) (hclear : op ≠ .removeAll p) :
    ∃ m', Listed l' k m' ∧ (m = 0 → m' = 0) ∧ (policy ≠ .lowestLatency → m' ≤ m) := by
  have stays {l' : List TimedRoute} (hl' : Listed l' k m) :
      ∃ m', Listed l' k m' ∧ (m = 0 → m' = 0) ∧ (policy ≠ .lowestLatency → m' ≤ m) :=
    ⟨m, hl', id, fun _ => UInt8.le_refl m⟩
  cases h with
  | same => exact stays hl
  | touched =>
      rw [listed_append, listed_cons] at hl
      exact stays (by rw [listed_append, listed_cons]; exact hl)
  | @updated now r x x' pre post time key unbeaten upgrade changed =>
      subst changed
      simp only [listed_perm (reorder_perm _ _ _), listed_append, listed_cons] at hl ⊢
      rcases hl with hpre | ⟨hk, hm⟩ | hpost
      · exact ⟨m, Or.inl hpre, id, fun _ => UInt8.le_refl m⟩
      · -- The route itself takes the metric of the new one, which it does not beat.
        refine ⟨r.metric, Or.inr (Or.inl ⟨hk, rfl⟩), ?_, ?_⟩
        · rw [← hm]
          exact upgrade
        · intro hpolicy
          rw [← hm]
          exact le_of_unbeaten upgrade fun hlt hkind => unbeaten ⟨hlt, hpolicy, hkind⟩
      · exact ⟨m, Or.inr (Or.inr hpost), id, fun _ => UInt8.le_refl m⟩
  | pushed offers passed =>
      exact stays (by rw [listed_perm (reorder_perm _ _ _), listed_append]; exact Or.inl hl)
  | measured =>
      rw [listed_append, listed_cons] at hl
      refine stays ?_
      rw [listed_perm (resort_perm _ _), listed_append, listed_cons]
      exact hl
  | @removed key l =>
      obtain ⟨e, he, hk, hm⟩ := hl
      refine stays ⟨e, List.mem_filter.mpr ⟨he, ?_⟩, hk, hm⟩
      simp only [ne_eq, decide_not, Bool.not_eq_eq_eq_not, Bool.not_true, decide_eq_false_iff_not]
      intro hkey
      exact hremove (by rw [← hk, hkey])
  | cleared => exact absurd rfl hclear

variable [DecidableEq ι]

/-! ## Calls and histories -/

/-- The table after a call. -/
def apply (t : RouteTable ι) : RouteOp ι → RouteTable ι
  | .addRoute now id route => (t.addRoute now id route).2
  | .addRouteIfAbsent now id route => (t.addRouteIfAbsent now id route).2
  | .updateReadTime now id key => t.updateReadTime now id key
  | .updateRtt id key rtt => t.updateRtt id key rtt
  | .getRouteById id => (t.getRouteById id).2
  | .removeRoute id key => t.removeRoute id key
  | .removeAll id => t.removeAll id

/-- The table after a list of calls. -/
def runOps (t : RouteTable ι) (ops : List (RouteOp ι)) : RouteTable ι := ops.foldl apply t

/-- A call as an event that is always enabled. -/
def step (t : RouteTable ι) (op : RouteOp ι) : Option (RouteTable ι) := some (t.apply op)

/-- A history is a run of the system whose events are the calls. -/
theorem run_step (t : RouteTable ι) (ops : List (RouteOp ι)) :
    Transition.run step t ops = some (t.runOps ops) := by
  induction ops generalizing t with
  | nil => rfl
  | cons op ops ih => exact ih (t.apply op)

/-- What every call keeps, a history keeps. -/
theorem runOps_invariant {I : RouteTable ι → Prop} (keep : ∀ t op, I t → I (t.apply op))
    {t : RouteTable ι} (ops : List (RouteOp ι)) (h : I t) : I (t.runOps ops) := by
  refine Transition.run_invariant ?_ (run_step t ops) h
  intro s op s' hstep hs
  cases hstep
  exact keep s op hs

/-! ## What each call does to a list -/

/-- `Change` for a call that stores a list of its own peer. -/
theorem change_setRoutes {t : RouteTable ι} {op : RouteOp ι} {id p : ι} {l : List TimedRoute}
    (h : Change t.loadBalance id op (t.timedRoutes id) l) :
    Change t.loadBalance p op (t.timedRoutes p) ((t.setRoutes id l).timedRoutes p) := by
  rw [timedRoutes_setRoutes]
  split
  next hp => rw [hp]; exact h
  next => exact .same

theorem change_addRoute (t : RouteTable ι) (now : Instant) (id : ι) (r : Route) (p : ι) :
    Change t.loadBalance p (.addRoute now id r) (t.timedRoutes p)
      ((t.addRoute now id r).2.timedRoutes p) := by
  have hadded := added_addRoute_ t now id r false
  simp only [addRoute]
  generalize (t.addRoute_ now id r false).2 = t' at hadded
  cases hadded with
  | rejected => exact .same
  | touched list => exact change_setRoutes (by rw [list]; exact .touched)
  | updated list key overwrites unbeaten upgrade changed =>
      exact change_setRoutes (by rw [list]; exact .updated key unbeaten upgrade changed)
  | pushed passed => exact change_setRoutes (.pushed rfl passed)

theorem change_addRouteIfAbsent (t : RouteTable ι) (now : Instant) (id : ι) (r : Route) (p : ι) :
    Change t.loadBalance p (.addRouteIfAbsent now id r) (t.timedRoutes p)
      ((t.addRouteIfAbsent now id r).2.timedRoutes p) := by
  have hadded := added_addRoute_ t now id r true
  simp only [addRouteIfAbsent]
  generalize (t.addRoute_ now id r true).2 = t' at hadded
  cases hadded with
  | rejected => exact .same
  | touched list => exact change_setRoutes (by rw [list]; exact .touched)
  | updated list key overwrites => cases overwrites
  | pushed passed => exact change_setRoutes (.pushed rfl passed)

theorem change_updateReadTime (t : RouteTable ι) (now : Instant) (id : ι) (key : RouteKey) (p : ι) :
    Change t.loadBalance p (.updateReadTime now id key) (t.timedRoutes p)
      ((t.updateReadTime now id key).timedRoutes p) := by
  simp only [updateReadTime]
  split
  next routes h =>
    obtain ⟨pre, x, time, post, list, -, rfl⟩ := touch_eq_some h
    exact change_setRoutes (by rw [list]; exact .touched)
  next => exact .same

theorem change_updateRtt (t : RouteTable ι) (id : ι) (key : RouteKey) (rtt : UInt32) (p : ι) :
    Change t.loadBalance p (.updateRtt id key rtt) (t.timedRoutes p)
      ((t.updateRtt id key rtt).timedRoutes p) := by
  simp only [updateRtt]
  split
  next routes h =>
    obtain ⟨pre, x, time, post, list, rfl, rfl⟩ := measure_eq_some h
    exact change_setRoutes (by rw [list]; exact .measured)
  next => exact .same

/-- The lists after `remove_route`. -/
theorem timedRoutes_removeRoute (t : RouteTable ι) (id : ι) (key : RouteKey) (p : ι) :
    (t.removeRoute id key).timedRoutes p =
      if p = id then (t.timedRoutes id).filter fun e => e.1.routeKey ≠ key
      else t.timedRoutes p := by
  simp only [removeRoute]
  split
  next h =>
    split
    next hp => subst hp; simp [timedRoutes, h]
    next => rfl
  next entry h =>
    have hl : t.timedRoutes id = entry.routes := by simp [timedRoutes, h]
    rw [hl]
    split
    next hempty =>
      simp only [timedRoutes, DashMap.get_remove]
      split
      next => exact (List.isEmpty_iff.mp hempty).symm
      next => rfl
    next => exact timedRoutes_setRoutes _ _ _ _

/-- The lists after `remove_all`. -/
theorem timedRoutes_removeAll (t : RouteTable ι) (id p : ι) :
    (t.removeAll id).timedRoutes p = if p = id then [] else t.timedRoutes p := by
  simp only [removeAll]
  split
  next h =>
    split
    next hp => subst hp; simp [timedRoutes, h]
    next => rfl
  next entry h =>
    simp only [timedRoutes, DashMap.get_remove]
    split <;> rfl

/-- A call does nothing else to a list. -/
theorem change_apply (t : RouteTable ι) (op : RouteOp ι) (p : ι) :
    Change t.loadBalance p op (t.timedRoutes p) ((t.apply op).timedRoutes p) := by
  cases op with
  | addRoute now id r => exact change_addRoute t now id r p
  | addRouteIfAbsent now id r => exact change_addRouteIfAbsent t now id r p
  | updateReadTime now id key => exact change_updateReadTime t now id key p
  | updateRtt id key rtt => exact change_updateRtt t id key rtt p
  | getRouteById id =>
      simp only [apply, timedRoutes_getRouteById]
      exact .same
  | removeRoute id key =>
      simp only [apply, timedRoutes_removeRoute]
      split
      next hp => subst hp; exact .removed
      next => exact .same
  | removeAll id =>
      simp only [apply, timedRoutes_removeAll]
      split
      next hp => subst hp; exact .cleared
      next => exact .same

theorem loadBalance_addRoute_ (t : RouteTable ι) (now : Instant) (id : ι) (r : Route)
    (onlyIfAbsent : Bool) :
    (t.addRoute_ now id r onlyIfAbsent).2.loadBalance = t.loadBalance := by
  have hadded := added_addRoute_ t now id r onlyIfAbsent
  generalize (t.addRoute_ now id r onlyIfAbsent).2 = t' at hadded
  cases hadded <;> rfl

/-- The policy of a table is fixed. -/
@[simp] theorem loadBalance_apply (t : RouteTable ι) (op : RouteOp ι) :
    (t.apply op).loadBalance = t.loadBalance := by
  cases op with
  | addRoute now id r => exact loadBalance_addRoute_ t now id r false
  | addRouteIfAbsent now id r => exact loadBalance_addRoute_ t now id r true
  | updateReadTime now id key => simp only [apply, updateReadTime]; split <;> rfl
  | updateRtt id key rtt => simp only [apply, updateRtt]; split <;> rfl
  | getRouteById id =>
      rcases getRouteById_snd t id with h | ⟨entry, count, -, h⟩ <;> simp only [apply, h]
  | removeRoute id key =>
      simp only [apply, removeRoute]
      split
      next => rfl
      next => split <;> rfl
  | removeAll id => simp only [apply, removeAll]; split <;> rfl

theorem loadBalance_runOps (t : RouteTable ι) (ops : List (RouteOp ι)) :
    (t.runOps ops).loadBalance = t.loadBalance :=
  runOps_invariant (I := fun s => s.loadBalance = t.loadBalance)
    (fun s op hs => (loadBalance_apply s op).trans hs) ops rfl

/-- What every change of a list keeps, a history keeps of the list of each peer. -/
theorem runOps_lists {policy : LoadBalance} {J : List TimedRoute → Prop} {p : ι}
    (keep : ∀ (op : RouteOp ι) l l', Change policy p op l l' → J l → J l') (nil : J [])
    (ops : List (RouteOp ι)) : J (((new policy : RouteTable ι).runOps ops).timedRoutes p) := by
  refine (runOps_invariant (t := new policy)
    (I := fun t => t.loadBalance = policy ∧ J (t.timedRoutes p)) ?_ ops ⟨rfl, nil⟩).2
  intro t op ht
  obtain ⟨hpolicy, hJ⟩ := ht
  have hchange := change_apply t op p
  rw [hpolicy] at hchange
  exact ⟨by rw [loadBalance_apply, hpolicy], keep op _ _ hchange hJ⟩

/-- The keys of every list of the table are distinct. -/
theorem nodup_keys_runOps (policy : LoadBalance) (ops : List (RouteOp ι)) (p : ι) :
    (keys (((new policy : RouteTable ι).runOps ops).timedRoutes p)).Nodup :=
  runOps_lists (J := fun l => (keys l).Nodup) (fun _ _ _ h hl => h.nodup_keys hl) List.nodup_nil ops

/-! ## No empty entry -/

/-- No peer has an entry without a route. -/
def NoEmptyEntry (t : RouteTable ι) : Prop :=
  ∀ id entry, t.routeTable.get id = some entry → entry.routes ≠ []

theorem reorder_ne_nil {policy : LoadBalance} {index : Nat} {l : List TimedRoute} (h : l ≠ []) :
    reorder policy index l ≠ [] := by
  intro hnil
  have hperm := reorder_perm policy index l
  rw [hnil] at hperm
  exact h hperm.symm.eq_nil

theorem NoEmptyEntry.setRoutes {t : RouteTable ι} (h : t.NoEmptyEntry) {id : ι}
    {l : List TimedRoute} (hl : l ≠ []) : (t.setRoutes id l).NoEmptyEntry := by
  intro p entry hentry
  simp only [RouteTable.setRoutes, DashMap.get_insert] at hentry
  split at hentry
  next => cases hentry; exact hl
  next => exact h p entry hentry

theorem NoEmptyEntry.addRoute_ {t : RouteTable ι} (h : t.NoEmptyEntry) (now : Instant) (id : ι)
    (r : Route) (onlyIfAbsent : Bool) : (t.addRoute_ now id r onlyIfAbsent).2.NoEmptyEntry := by
  have hadded := added_addRoute_ t now id r onlyIfAbsent
  generalize (t.addRoute_ now id r onlyIfAbsent).2 = t' at hadded
  cases hadded with
  | rejected => exact h
  | touched => exact h.setRoutes (by simp)
  | updated => exact h.setRoutes (reorder_ne_nil (by simp))
  | @pushed index passed indexed =>
      have hindex : ({ t with routeKeyTable := index } : RouteTable ι).NoEmptyEntry := h
      exact hindex.setRoutes (reorder_ne_nil (by simp))

/-- A call leaves no entry without a route. -/
theorem NoEmptyEntry.apply {t : RouteTable ι} (h : t.NoEmptyEntry) (op : RouteOp ι) :
    (t.apply op).NoEmptyEntry := by
  cases op with
  | addRoute now id r => exact h.addRoute_ now id r false
  | addRouteIfAbsent now id r => exact h.addRoute_ now id r true
  | updateReadTime now id key =>
      simp only [RouteTable.apply, updateReadTime]
      split
      next routes htouch =>
        obtain ⟨pre, x, time, post, -, -, rfl⟩ := touch_eq_some htouch
        exact h.setRoutes (by simp)
      next => exact h
  | updateRtt id key rtt =>
      simp only [RouteTable.apply, updateRtt]
      split
      next routes hmeasure =>
        obtain ⟨pre, x, time, post, -, -, rfl⟩ := measure_eq_some hmeasure
        refine h.setRoutes fun hnil => ?_
        have hperm := resort_perm t.loadBalance (pre ++ ({ x with rtt := rtt }, time) :: post)
        rw [hnil] at hperm
        simpa using hperm.symm.eq_nil
      next => exact h
  | getRouteById id =>
      simp only [RouteTable.apply]
      rcases getRouteById_snd t id with hsame | ⟨entry, count, hentry, hmoved⟩
      · rw [hsame]
        exact h
      · rw [hmoved]
        intro p entry' hentry'
        simp only [DashMap.get_insert] at hentry'
        split at hentry'
        next => cases hentry'; exact h id entry hentry
        next => exact h p entry' hentry'
  | removeRoute id key =>
      simp only [RouteTable.apply, removeRoute]
      split
      next => exact h
      next entry hentry =>
        split
        next hempty =>
          intro p entry' hentry'
          exact h p entry' (DashMap.get_remove_eq_some.mp hentry').2
        next hempty =>
          have hindex : ({ t with routeKeyTable := t.routeKeyTable.removeIf key (· = id) } :
            RouteTable ι).NoEmptyEntry := h
          exact hindex.setRoutes (by simpa using hempty)
  | removeAll id =>
      simp only [RouteTable.apply, removeAll]
      split
      next => exact h
      next entry hentry =>
        intro p entry' hentry'
        exact h p entry' (DashMap.get_remove_eq_some.mp hentry').2

theorem noEmptyEntry_runOps (policy : LoadBalance) (ops : List (RouteOp ι)) :
    ((new policy : RouteTable ι).runOps ops).NoEmptyEntry := by
  refine runOps_invariant (I := NoEmptyEntry) (fun t op h => h.apply op) ops ?_
  intro id entry hentry
  cases hentry

theorem NoEmptyEntry.exists_iff {t : RouteTable ι} (h : t.NoEmptyEntry) {id : ι} :
    t.exists_ id = true ↔ t.route id ≠ [] := by
  simp only [exists_, route, timedRoutes]
  cases hentry : t.routeTable.get id with
  | none => simp
  | some entry => simpa using h id entry hentry

theorem routeOne_eq (t : RouteTable ι) (id : ι) : t.routeOne id = (t.route id).head? := by
  simp only [routeOne, route, timedRoutes]
  cases t.routeTable.get id with
  | none => rfl
  | some entry => simp

/-- Lookup succeeds exactly when the peer has a route. -/
theorem getRouteById_isOk_iff {t : RouteTable ι} {id : ι} :
    (∃ r, (t.getRouteById id).1 = .ok r) ↔ t.route id ≠ [] := by
  constructor
  · intro h
    obtain ⟨r, hr⟩ := h
    exact List.ne_nil_of_mem (picked_of_getRouteById hr).mem
  · exact getRouteById_isOk

/-- After every history the keys of a peer's list are distinct and no entry is empty.
So a peer has an entry exactly when lookup succeeds, and exactly when there is a
first route, and lookup gives a route of its list. -/
theorem representation_invariant (policy : LoadBalance) (ops : List (RouteOp ι)) (id : ι) :
    let t := (new policy : RouteTable ι).runOps ops
    ((t.route id).map Route.routeKey).Nodup ∧
      (∀ entry, t.routeTable.get id = some entry → entry.routes ≠ []) ∧
      (t.exists_ id = true ↔ ∃ r, (t.getRouteById id).1 = .ok r) ∧
      (t.exists_ id = true ↔ (t.routeOne id).isSome = true) ∧
      ∀ r, (t.getRouteById id).1 = .ok r → r ∈ t.route id := by
  intro t
  have hentries : t.NoEmptyEntry := noEmptyEntry_runOps policy ops
  refine ⟨?_, hentries id, ?_, ?_, ?_⟩
  · rw [route, List.map_map]
    exact nodup_keys_runOps policy ops id
  · rw [hentries.exists_iff, getRouteById_isOk_iff]
  · rw [hentries.exists_iff, routeOne_eq, List.isSome_head?]
  · intro r hr
    exact (picked_of_getRouteById hr).mem

/-! ## No downgrade -/

theorem runOps_append (t : RouteTable ι) (ops ops' : List (RouteOp ι)) :
    t.runOps (ops ++ ops') = (t.runOps ops).runOps ops' := List.foldl_append

/-- `Change.listed` over a history. -/
theorem Has.runOps {t : RouteTable ι} {p : ι} {k : RouteKey} {m : UInt8} (h : t.Has p k m)
    {ops : List (RouteOp ι)} (hremove : .removeRoute p k ∉ ops) (hclear : .removeAll p ∉ ops) :
    ∃ m', (t.runOps ops).Has p k m' ∧ (m = 0 → m' = 0) ∧
      (t.loadBalance ≠ .lowestLatency → m' ≤ m) := by
  induction ops generalizing t m with
  | nil => exact ⟨m, h, id, fun _ => UInt8.le_refl m⟩
  | cons op ops ih =>
      rw [List.mem_cons, not_or] at hremove hclear
      obtain ⟨m₁, h₁, hdirect₁, hle₁⟩ := (change_apply t op p).listed (has_iff_listed.mp h)
        (Ne.symm hremove.1) (Ne.symm hclear.1)
      obtain ⟨m₂, h₂, hdirect₂, hle₂⟩ := ih (has_iff_listed.mpr h₁) hremove.2 hclear.2
      rw [loadBalance_apply] at hle₂
      exact ⟨m₂, h₂, fun hm => hdirect₂ (hdirect₁ hm),
        fun hpolicy => UInt8.le_trans (hle₂ hpolicy) (hle₁ hpolicy)⟩

/-- A route of a peer stays in the table until it is removed.  A direct route stays
direct, and without the latency policy its metric never goes up. -/
theorem no_downgrade (policy : LoadBalance) (ops ops' : List (RouteOp ι)) (p : ι) (k : RouteKey)
    (m : UInt8) (h : ((new policy : RouteTable ι).runOps ops).Has p k m)
    (hremove : .removeRoute p k ∉ ops') (hclear : .removeAll p ∉ ops') :
    ∃ m', (∀ m'', ((new policy : RouteTable ι).runOps (ops ++ ops')).Has p k m'' ↔ m'' = m') ∧
      (m = 0 → m' = 0) ∧ (policy ≠ .lowestLatency → m' ≤ m) := by
  obtain ⟨m', hm', hdirect, hle⟩ := h.runOps hremove hclear
  rw [← runOps_append] at hm'
  rw [loadBalance_runOps] at hle
  refine ⟨m', ?_, hdirect, hle⟩
  intro m''
  constructor
  · intro hm''
    exact listed_unique (nodup_keys_runOps policy (ops ++ ops') p) (has_iff_listed.mp hm'')
      (has_iff_listed.mp hm')
  · intro heq
    rw [heq]
    exact hm'

/-- Two paths to a peer. -/
def pathOne : RouteKey := ⟨.udp, .v4 ⟨0, 0, 0, 0⟩ 5000, .v4 ⟨10, 0, 0, 1⟩ 4000⟩

@[inherit_doc pathOne]
def pathTwo : RouteKey := ⟨.udp, .v4 ⟨0, 0, 0, 0⟩ 5000, .v4 ⟨10, 0, 0, 2⟩ 4000⟩

theorem no_downgrade_relay : ∃ m', (∀ m'', ((new .minHopLowestLatency : RouteTable Nat).runOps
      ([.addRoute 0 1 ⟨pathOne, 2, 9999⟩] ++
        [.addRoute 1 1 ⟨pathOne, 5, 9999⟩, .removeRoute 1 pathTwo])).Has 1 pathOne m'' ↔
      m'' = m') ∧ ((2 : UInt8) = 0 → m' = 0) ∧
    (LoadBalance.minHopLowestLatency ≠ .lowestLatency → m' ≤ 2) :=
  no_downgrade .minHopLowestLatency [.addRoute 0 1 ⟨pathOne, 2, 9999⟩]
    [.addRoute 1 1 ⟨pathOne, 5, 9999⟩, .removeRoute 1 pathTwo] 1 pathOne 2 (by decide) (by decide)
    (by decide)

end RouteTable

end RustP2p
