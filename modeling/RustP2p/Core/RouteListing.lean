import RustP2p.Core.RouteOps

/-!
# The peers of a route key

`route_key_table` lists for every route key the peers that have a route with it.
It is built in one pass over the table, in the iteration order of the map.  A
peer is pushed at the end of the list of its key, and a direct peer then changes
places with the first one.

`Lists` is what the pass keeps: the list of a key is a permutation of the peers
seen so far for it, with a direct one in front once there was one.  The keys of a
peer's routes are distinct, so no peer is seen twice for a key.
-/

namespace RustP2p

namespace RouteTable

variable {ι : Type}

/-! ## One pass over the table -/

/-- The entry of a route in the listing. -/
def listRoute (map : DashMap RouteKey (List ι)) (id : ι) (route : Route) :
    DashMap RouteKey (List ι) :=
  match map.get route.routeKey with
  | some list =>
      let list := list ++ [id]
      map.insert route.routeKey
        (if route.isDirect then swapAt list 0 (list.length - 1) else list)
  | none => map.insert route.routeKey [id]

/-- `RouteTable::route_key_table`, the method. -/
def routeKeyTable_ (t : RouteTable ι) : DashMap RouteKey (List ι) :=
  t.routeTable.pairs.foldl
    (fun map e => e.2.routes.foldl (fun map r => listRoute map e.1 r.1) map) ∅

/-- The routes of the table with their peers, in iteration order. -/
def timedHoldings (t : RouteTable ι) : List (ι × TimedRoute) :=
  t.routeTable.pairs.flatMap fun e => e.2.routes.map fun r => (e.1, r)

/-- A loop over the entries and their routes goes through the routes of the table. -/
theorem foldl_pairs {β : Type} (f : β → ι → TimedRoute → β) (t : RouteTable ι) (init : β) :
    t.routeTable.pairs.foldl (fun acc e => e.2.routes.foldl (fun acc r => f acc e.1 r) acc) init =
      t.timedHoldings.foldl (fun acc h => f acc h.1 h.2) init := by
  simp only [timedHoldings, List.foldl_flatMap, List.foldl_map]

/-- The same without the read times. -/
def holdings (t : RouteTable ι) : List (ι × Route) := t.timedHoldings.map fun h => (h.1, h.2.1)

theorem routeKeyTable_eq (t : RouteTable ι) :
    t.routeKeyTable_ = t.holdings.foldl (fun map h => listRoute map h.1 h.2) ∅ := by
  rw [holdings, List.foldl_map]
  exact foldl_pairs (fun map id r => listRoute map id r.1) t ∅

/-- The peers that have a route with the key, in iteration order. -/
def holders (key : RouteKey) (h : List (ι × Route)) : List ι :=
  (h.filter fun x => x.2.routeKey = key).map Prod.fst

/-- The peer has the key as a direct route. -/
def Owns (h : List (ι × Route)) (key : RouteKey) (p : ι) : Prop :=
  ∃ r, (p, r) ∈ h ∧ r.routeKey = key ∧ r.metric = 0

/-- The first of the list owns the key, if anybody does. -/
def OwnerFirst (h : List (ι × Route)) (key : RouteKey) (list : List ι) : Prop :=
  (∃ p, Owns h key p) → ∃ p, list.head? = some p ∧ Owns h key p

/-- What the listing has for a key, when these routes have been seen. -/
def ListedAs (h : List (ι × Route)) (key : RouteKey) : Option (List ι) → Prop
  | none => holders key h = []
  | some list => list ≠ [] ∧ list.Perm (holders key h) ∧ OwnerFirst h key list

/-- The map lists these routes. -/
def Lists (map : DashMap RouteKey (List ι)) (h : List (ι × Route)) : Prop :=
  ∀ key, ListedAs h key (map.get key)

theorem holders_concat (key : RouteKey) (h : List (ι × Route)) (id : ι) (r : Route) :
    holders key (h ++ [(id, r)]) =
      if r.routeKey = key then holders key h ++ [id] else holders key h := by
  simp only [holders, List.filter_append, List.map_append]
  split
  next heq => simp [heq]
  next hne => simp [hne]

theorem owns_concat {h : List (ι × Route)} {id p : ι} {r : Route} {key : RouteKey} :
    Owns (h ++ [(id, r)]) key p ↔
      Owns h key p ∨ p = id ∧ r.routeKey = key ∧ r.metric = 0 := by
  simp only [Owns, List.mem_append, List.mem_singleton, Prod.mk.injEq]
  constructor
  · intro hp
    obtain ⟨r', hmem | ⟨rfl, rfl⟩, hr⟩ := hp
    · exact Or.inl ⟨r', hmem, hr⟩
    · exact Or.inr ⟨rfl, hr⟩
  · intro hp
    rcases hp with ⟨r', hmem, hr⟩ | ⟨rfl, hr⟩
    · exact ⟨r', Or.inl hmem, hr⟩
    · exact ⟨r, Or.inr ⟨rfl, rfl⟩, hr⟩

/-- The last of a list comes to its front. -/
theorem head?_swapAt_last (l : List ι) (id : ι) :
    (swapAt (l ++ [id]) 0 ((l ++ [id]).length - 1)).head? = some id := by
  cases l with
  | nil => rfl
  | cons x l =>
      have hlast : ((x :: l) ++ [id])[((x :: l) ++ [id]).length - 1]? = some id := by simp
      have hfirst : ((x :: l) ++ [id])[0]? = some x := rfl
      simp only [swapAt, hlast, hfirst]
      simp

/-- A push keeps the owner in front, and brings a new one there. -/
theorem OwnerFirst.push {h : List (ι × Route)} {list : List ι} {r : Route}
    (hfirst : OwnerFirst h r.routeKey list) (hne : list ≠ []) (id : ι) :
    OwnerFirst (h ++ [(id, r)]) r.routeKey
      (if r.isDirect then swapAt (list ++ [id]) 0 ((list ++ [id]).length - 1)
        else list ++ [id]) := by
  intro howner
  split
  next hdirect =>
    exact ⟨id, head?_swapAt_last list id,
      owns_concat.mpr (Or.inr ⟨rfl, rfl, Route.isDirect_iff.mp hdirect⟩)⟩
  next hrelay =>
    -- The route is relayed, so the owner was there before.
    obtain ⟨p, hp⟩ := howner
    rcases owns_concat.mp hp with hold | ⟨-, -, hzero⟩
    · obtain ⟨q, hq, howns⟩ := hfirst ⟨p, hold⟩
      exact ⟨q, by rw [List.head?_append_of_ne_nil _ hne, hq], owns_concat.mpr (Or.inl howns)⟩
    · exact absurd (Route.isDirect_iff.mpr hzero) hrelay

/-- A route with another key changes nothing for the key. -/
theorem ListedAs.other {h : List (ι × Route)} {key : RouteKey} {listed : Option (List ι)}
    (hlisted : ListedAs h key listed) {r : Route} (hkey : r.routeKey ≠ key) (id : ι) :
    ListedAs (h ++ [(id, r)]) key listed := by
  have howns : ∀ p, Owns (h ++ [(id, r)]) key p ↔ Owns h key p := by
    intro p
    rw [owns_concat]
    simp [hkey]
  cases listed with
  | none =>
      rw [ListedAs, holders_concat, if_neg hkey]
      exact hlisted
  | some list =>
      rw [ListedAs, holders_concat, if_neg hkey]
      simp only [OwnerFirst, howns]
      exact hlisted

/-- The first peer of a key. -/
theorem ListedAs.first {h : List (ι × Route)} {r : Route} (hnone : holders r.routeKey h = [])
    (id : ι) : ListedAs (h ++ [(id, r)]) r.routeKey (some [id]) := by
  rw [ListedAs, holders_concat, if_pos rfl, hnone]
  refine ⟨by simp, List.Perm.refl _, ?_⟩
  -- Nobody had the key before, so a direct peer is the new one.
  rintro ⟨p, hp⟩
  rcases owns_concat.mp hp with ⟨r', hmem, hkey, -⟩ | ⟨rfl, -⟩
  · have hholder : p ∈ holders r.routeKey h :=
      List.mem_map.mpr ⟨(p, r'), List.mem_filter.mpr ⟨hmem, by simpa using hkey⟩, rfl⟩
    rw [hnone] at hholder
    cases hholder
  · exact ⟨p, rfl, hp⟩

/-- One more peer of a key. -/
theorem ListedAs.push {h : List (ι × Route)} {r : Route} {list : List ι}
    (hlisted : ListedAs h r.routeKey (some list)) (id : ι) :
    ListedAs (h ++ [(id, r)]) r.routeKey
      (some (if r.isDirect then swapAt (list ++ [id]) 0 ((list ++ [id]).length - 1)
        else list ++ [id])) := by
  obtain ⟨hne, hperm, hfirst⟩ := hlisted
  rw [ListedAs, holders_concat, if_pos rfl]
  have hpush : (list ++ [id]).Perm (holders r.routeKey h ++ [id]) := hperm.append_right _
  have hswap := swapAt_perm (list ++ [id]) 0 ((list ++ [id]).length - 1)
  refine ⟨?_, ?_, hfirst.push hne id⟩
  · split
    next =>
      intro hnil
      rw [hnil] at hswap
      simpa using hswap.symm.eq_nil
    next => simp
  · split
    next => exact hswap.trans hpush
    next => exact hpush

/-- One more route is listed. -/
theorem Lists.listRoute {map : DashMap RouteKey (List ι)} {h : List (ι × Route)}
    (hlists : Lists map h) (id : ι) (r : Route) :
    Lists (listRoute map id r) (h ++ [(id, r)]) := by
  intro key
  have hkey := hlists key
  simp only [RouteTable.listRoute]
  split
  next list hlist =>
    rw [DashMap.get_insert]
    split
    next heq =>
      subst heq
      rw [hlist] at hkey
      exact hkey.push id
    next hne => exact hkey.other (Ne.symm hne) id
  next hnone =>
    rw [DashMap.get_insert]
    split
    next heq =>
      subst heq
      rw [hnone] at hkey
      exact .first hkey id
    next hne => exact hkey.other (Ne.symm hne) id

/-- The pass lists the routes of the table. -/
theorem lists_routeKeyTable_ (t : RouteTable ι) : Lists t.routeKeyTable_ t.holdings := by
  rw [routeKeyTable_eq]
  induction t.holdings using List.reverseRecOn with
  | nil => exact fun key => rfl
  | append_singleton h x ih =>
      rw [List.foldl_append]
      exact ih.listRoute x.1 x.2

/-! ## The routes of the table -/

variable [DecidableEq ι]

theorem mem_timedHoldings {t : RouteTable ι} {p : ι} {e : TimedRoute} :
    (p, e) ∈ t.timedHoldings ↔ e ∈ t.timedRoutes p := by
  simp only [timedHoldings, List.mem_flatMap, List.mem_map, Prod.mk.injEq, timedRoutes]
  constructor
  · intro h
    obtain ⟨⟨id, entry⟩, he, e', hmem, rfl, rfl⟩ := h
    rw [DashMap.mem_pairs.mp he]
    exact hmem
  · intro h
    cases hentry : t.routeTable.get p with
    | none => simp [hentry] at h
    | some entry =>
        rw [hentry] at h
        exact ⟨(p, entry), DashMap.mem_pairs.mpr hentry, e, h, rfl, rfl⟩

theorem mem_holdings {t : RouteTable ι} {p : ι} {r : Route} :
    (p, r) ∈ t.holdings ↔ r ∈ t.route p := by
  simp only [holdings, route, List.mem_map, Prod.mk.injEq]
  constructor
  · intro h
    obtain ⟨⟨id, e⟩, he, rfl, rfl⟩ := h
    exact ⟨e, mem_timedHoldings.mp he, rfl⟩
  · intro h
    obtain ⟨e, he, rfl⟩ := h
    exact ⟨(p, e), mem_timedHoldings.mpr he, rfl, rfl⟩

theorem owns_holdings {t : RouteTable ι} {key : RouteKey} {p : ι} :
    Owns t.holdings key p ↔ t.Has p key 0 := by
  simp only [Owns, mem_holdings, Has]

theorem mem_holders {t : RouteTable ι} {key : RouteKey} {p : ι} :
    p ∈ holders key t.holdings ↔ ∃ m, t.Has p key m := by
  simp only [holders, List.mem_map, List.mem_filter, Prod.exists, exists_and_right, exists_eq_right,
    mem_holdings, decide_eq_true_eq, Has]
  constructor
  · intro h
    obtain ⟨r, hr, hkey⟩ := h
    exact ⟨r.metric, r, hr, hkey, rfl⟩
  · intro h
    obtain ⟨m, r, hr, hkey, -⟩ := h
    exact ⟨r, hr, hkey⟩

/-- With distinct keys in every list no peer is seen twice for a key. -/
theorem nodup_holders {t : RouteTable ι} (h : ∀ p, (keys (t.timedRoutes p)).Nodup)
    (key : RouteKey) : (holders key t.holdings).Nodup := by
  have hkeys : (t.holdings.map fun x => (x.1, x.2.routeKey)).Nodup := by
    simp only [holdings, timedHoldings, List.map_flatMap, List.map_map, Function.comp_def]
    rw [List.nodup_flatMap]
    constructor
    · rintro ⟨id, entry⟩ he
      have hl := h id
      simp only [timedRoutes, DashMap.mem_pairs.mp he, Option.elim_some, keys] at hl
      have hpair := hl.map (Prod.mk_right_injective id)
      rwa [List.map_map] at hpair
    · have hids : (t.routeTable.pairs.map Prod.fst).Nodup := by
        simp only [DashMap.pairs, List.map_map]
        exact t.routeTable.keys_nodup
      refine (List.pairwise_map.mp hids).imp ?_
      intro e e' hne
      simp only [Function.onFun, List.disjoint_left, List.mem_map]
      rintro _ ⟨r, -, rfl⟩ ⟨r', -, heq⟩
      exact hne (Prod.mk.inj heq).1.symm
  refine List.Nodup.map_on ?_ ((List.Nodup.of_map _ hkeys).filter _)
  intro x hx y hy heq
  obtain ⟨hmemx, hkeyx⟩ := List.mem_filter.mp hx
  obtain ⟨hmemy, hkeyy⟩ := List.mem_filter.mp hy
  refine List.inj_on_of_nodup_map hkeys hmemx hmemy (Prod.ext heq ?_)
  exact (of_decide_eq_true hkeyx).trans (of_decide_eq_true hkeyy).symm

/-- In whatever order the table is gone through, the listing has the keys that some peer
has a route with, each with exactly its peers, once each.  If the key is somebody's direct
route, the first of the peers has it as a direct route. -/
theorem routeKeyTable_exact (policy : LoadBalance) (ops : List (RouteOp ι)) (t' : RouteTable ι)
    (hperm : t'.routeTable.entries.Perm
      ((new policy : RouteTable ι).runOps ops).routeTable.entries) (key : RouteKey) :
    let t := (new policy : RouteTable ι).runOps ops
    ((t'.routeKeyTable_.get key).isSome = true ↔ ∃ p m, t.Has p key m) ∧
      ∀ list, t'.routeKeyTable_.get key = some list →
        list.Nodup ∧ (∀ p, p ∈ list ↔ ∃ m, t.Has p key m) ∧
          ((∃ p, t.Has p key 0) → ∃ p, list.head? = some p ∧ t.Has p key 0) := by
  intro t
  have hlist : ∀ p, t'.timedRoutes p = t.timedRoutes p := by
    intro p
    simp only [timedRoutes, DashMap.get_perm hperm p, t]
  have hhas : ∀ p k m, t'.Has p k m ↔ t.Has p k m := by
    intro p k m
    rw [has_iff_listed, has_iff_listed, hlist]
  have hnodup : (holders key t'.holdings).Nodup := by
    refine nodup_holders ?_ key
    intro p
    rw [hlist]
    exact nodup_keys_runOps policy ops p
  have hholder : ∀ p, p ∈ holders key t'.holdings ↔ ∃ m, t.Has p key m := by
    intro p
    rw [mem_holders]
    exact exists_congr fun m => hhas p key m
  have hlisted := lists_routeKeyTable_ t' key
  cases hget : t'.routeKeyTable_.get key with
  | none =>
      rw [hget] at hlisted
      refine ⟨iff_of_false (by simp) ?_, by intro list hlist; cases hlist⟩
      rintro ⟨p, hp⟩
      have hmem := (hholder p).mpr hp
      rw [show holders key t'.holdings = [] from hlisted] at hmem
      cases hmem
  | some list =>
      rw [hget] at hlisted
      obtain ⟨hne, hlists, hfirst⟩ := hlisted
      constructor
      · obtain ⟨p, hp⟩ := List.exists_mem_of_ne_nil list hne
        exact iff_of_true rfl ⟨p, (hholder p).mp (hlists.mem_iff.mp hp)⟩
      · intro list' hlist'
        cases hlist'
        refine ⟨hlists.nodup_iff.mpr hnodup, fun p => hlists.mem_iff.trans (hholder p), ?_⟩
        simp only [OwnerFirst, owns_holdings, hhas] at hfirst
        exact hfirst

/-- A relayed route and a direct one with the same key. -/
def sharedPath : List (RouteOp Nat) :=
  [.addRoute 0 1 ⟨pathOne, 1, 20⟩, .addRoute 1 2 ⟨pathOne, 0, 30⟩]

/-- The owner comes first, also when its entry comes last in the table. -/
theorem routeKeyTable_exact_shared :
    let t := (new .minHopLowestLatency : RouteTable Nat).runOps sharedPath
    let t' := (new .minHopLowestLatency : RouteTable Nat).runOps sharedPath.reverse
    ∃ list, t'.routeKeyTable_.get pathOne = some list ∧ list.Nodup ∧
      ∃ p, list.head? = some p ∧ t.Has p pathOne 0 := by
  intro t t'
  have hexact := routeKeyTable_exact .minHopLowestLatency sharedPath t' (by decide) pathOne
  obtain ⟨hnodup, -, hfirst⟩ := hexact.2 [2, 1] (by decide)
  exact ⟨[2, 1], by decide, hnodup, hfirst ⟨2, by decide⟩⟩

end RouteTable

end RustP2p
