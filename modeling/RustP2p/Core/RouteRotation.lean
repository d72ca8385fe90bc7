import RustP2p.Core.RouteOps
import RustP2p.Lib.Rotation

/-!
# Round robin

Under `RoundRobin` a peer without a direct route has its routes picked in turn.
The counter of the peer's entry goes up with every lookup of the peer, and it
stays when another peer is looked up.

`answers_lookUps` says which routes a row of lookups gives: those whose turn it
is from the counter on.  How often each of them comes up is a fact about turns
(`round_robin_rotation`).
-/

namespace RustP2p

namespace RouteTable

variable {ι : Type} [DecidableEq ι]

/-! ## A row of lookups -/

/-- `get_route_by_id` for one peer after the other, each answer with its peer. -/
def lookUps (t : RouteTable ι) : List ι → List (ι × IoResult Route)
  | [] => []
  | id :: ids => (id, (t.getRouteById id).1) :: lookUps (t.getRouteById id).2 ids

/-- The answers for one peer. -/
def answersFor (p : ι) (answers : List (ι × IoResult Route)) : List (IoResult Route) :=
  (answers.filter fun a => a.1 = p).map Prod.snd

theorem length_answersFor (t : RouteTable ι) (p : ι) (ids : List ι) :
    (answersFor p (t.lookUps ids)).length = ids.count p := by
  induction ids generalizing t with
  | nil => rfl
  | cons id ids ih =>
      by_cases h : id = p
      · subst h
        simpa [lookUps, answersFor] using ih (t.getRouteById id).2
      · simpa [lookUps, answersFor, h] using ih (t.getRouteById id).2

/-! ## One lookup -/

section Turn

variable {t : RouteTable ι} {p : ι} {c : UInt64} {l : List TimedRoute}

/-- The lookup of another peer leaves the entry. -/
theorem get_getRouteById_of_ne {id : ι} (h : p ≠ id) :
    (t.getRouteById id).2.routeTable.get p = t.routeTable.get p := by
  rcases getRouteById_snd t id with hsame | ⟨entry, count, -, hmoved⟩
  · rw [hsame]
  · rw [hmoved, DashMap.get_insert, if_neg h]

/-- Without a direct route the lookup gives the route whose turn it is. -/
theorem getRouteById_turn (hpolicy : t.loadBalance = .roundRobin)
    (hentry : t.routeTable.get p = some ⟨c, l⟩) (hrelay : ∀ e ∈ l, e.1.metric ≠ 0) (hl : l ≠ []) :
    ∃ e, l[c.toNat % l.length]? = some e ∧ (t.getRouteById p).1 = .ok e.1 ∧
      (t.getRouteById p).2.routeTable.get p = some ⟨c + 1, l⟩ := by
  have hlt : c.toNat % l.length < l.length := Nat.mod_lt _ (List.length_pos_of_ne_nil hl)
  have hnone : l.find? (fun e => e.1.isDirect) = none := by
    rw [List.find?_eq_none]
    intro e he
    simpa using hrelay e he
  refine ⟨l[c.toNat % l.length], List.getElem?_eq_getElem hlt, ?_⟩
  simp only [getRouteById, hentry, hnone, hpolicy, ne_eq, not_true_eq_false, if_false,
    List.getElem?_eq_getElem hlt, DashMap.get_insert_self, and_self]

/-- The answers for a peer are the routes whose turn it is, as long as the counter does
not wrap. -/
theorem answers_lookUps (hpolicy : t.loadBalance = .roundRobin)
    (hentry : t.routeTable.get p = some ⟨c, l⟩) (hrelay : ∀ e ∈ l, e.1.metric ≠ 0) (hl : l ≠ [])
    {ids : List ι} (hwrap : c.toNat + ids.count p ≤ 2 ^ 64) :
    (answersFor p (t.lookUps ids)).map Except.toOption =
      Rotation.turns (l.map Prod.fst) c.toNat (ids.count p) := by
  induction ids generalizing t c with
  | nil => rfl
  | cons id ids ih =>
      have hpolicy' : (t.getRouteById id).2.loadBalance = .roundRobin :=
        (loadBalance_apply t (.getRouteById id)).trans hpolicy
      by_cases hid : id = p
      · subst hid
        obtain ⟨e, he, hanswer, hentry'⟩ := getRouteById_turn hpolicy hentry hrelay hl
        rw [List.count_cons_self] at hwrap ⊢
        simp only [lookUps, answersFor, decide_true, List.filter_cons_of_pos, List.map_cons,
          hanswer]
        rw [Rotation.turns_succ]
        refine congrArg₂ List.cons ?_ ?_
        · rw [List.length_map, List.getElem?_map, he]
          rfl
        · -- The counter wraps at most behind the last of the lookups.
          by_cases hcount : ids.count id = 0
          · have hlength := length_answersFor (t.getRouteById id).2 id ids
            rw [hcount] at hlength ⊢
            rw [answersFor] at hlength
            rw [List.eq_nil_of_length_eq_zero hlength]
            rfl
          · have hnext : (c + 1).toNat = c.toNat + 1 := by
              rw [UInt64.toNat_add, UInt64.toNat_one, Nat.mod_eq_of_lt (by omega)]
            rw [← hnext]
            exact ih hpolicy' hentry' (by omega)
      · rw [List.count_cons_of_ne hid] at hwrap ⊢
        simp only [lookUps, answersFor, hid, decide_false, Bool.false_eq_true, not_false_eq_true,
          List.filter_cons_of_neg]
        exact ih hpolicy' ((get_getRouteById_of_ne (Ne.symm hid)).trans hentry) hwrap

end Turn

/-! ## The rotation -/

/-- The lookups of a peer without a direct route go round its routes.  With other lookups
in between or not, `n` of them in a row give each of the `n` routes once, and `m` of them
give each route `m / n` times, rounded down or up. -/
theorem round_robin_rotation (ops : List (RouteOp ι)) {p : ι} {c : UInt64} {l : List TimedRoute}
    (hentry : ((new .roundRobin : RouteTable ι).runOps ops).routeTable.get p = some ⟨c, l⟩)
    (hrelay : ∀ e ∈ l, e.1.metric ≠ 0) (ids : List ι)
    (hwrap : c.toNat + ids.count p ≤ 2 ^ 64) :
    let t := (new .roundRobin : RouteTable ι).runOps ops
    let answers := answersFor p (t.lookUps ids)
    let n := (t.route p).length
    let m := ids.count p
    answers.length = m ∧ (∀ a ∈ answers, ∃ r ∈ t.route p, a = .ok r) ∧
      ∀ r ∈ t.route p, (m = n → answers.count (.ok r) = 1) ∧
        (answers.count (.ok r) = m / n ∨ answers.count (.ok r) = (m + n - 1) / n) := by
  intro t answers n m
  have hl : l ≠ [] := noEmptyEntry_runOps .roundRobin ops p _ hentry
  have hroute : t.route p = l.map Prod.fst := by
    simp only [t, route, timedRoutes, hentry, Option.elim_some]
  have hturns : answers.map Except.toOption =
      Rotation.turns (l.map Prod.fst) c.toNat m :=
    answers_lookUps (loadBalance_runOps _ ops) hentry hrelay hl hwrap
  have hok : ∀ a ∈ answers, ∃ r ∈ t.route p, a = .ok r := by
    intro a ha
    have hmem : a.toOption ∈ Rotation.turns (l.map Prod.fst) c.toNat m := by
      rw [← hturns]
      exact List.mem_map_of_mem ha
    obtain ⟨r, hr, hsome⟩ := Rotation.mem_of_turns (by simpa using hl) hmem
    refine ⟨r, hroute ▸ hr, ?_⟩
    cases a with
    | error e => cases hsome
    | ok r' => exact congrArg Except.ok (Option.some.inj hsome)
  have hcount : ∀ r, answers.count (.ok r) =
      (Rotation.turns (t.route p) c.toNat m).count (some r) := by
    intro r
    rw [hroute, ← hturns, List.count, List.count, List.countP_map]
    refine List.countP_congr ?_
    intro a ha
    obtain ⟨r', -, rfl⟩ := hok a ha
    simp [Except.toOption]
  have hnodup : (t.route p).Nodup := by
    refine List.Nodup.of_map Route.routeKey ?_
    rw [route, List.map_map]
    exact nodup_keys_runOps .roundRobin ops p
  refine ⟨length_answersFor t p ids, hok, ?_⟩
  intro r hr
  rw [hcount r]
  refine ⟨?_, Rotation.count_turns_or hnodup hr c.toNat m⟩
  intro hm
  rw [hm]
  exact Rotation.count_turns_round hnodup hr c.toNat

/-- Two relayed routes to a peer, with a lookup of another peer between its lookups. -/
theorem round_robin_rotation_two :
    let t := (new .roundRobin : RouteTable Nat).runOps
      [.addRoute 0 1 ⟨pathOne, 1, 20⟩, .addRoute 1 1 ⟨pathTwo, 1, 30⟩, .getRouteById 1]
    (answersFor 1 (t.lookUps [1, 2, 1])).count (.ok ⟨pathOne, 1, 20⟩) = 1 :=
  ((round_robin_rotation
    [.addRoute 0 1 ⟨pathOne, 1, 20⟩, .addRoute 1 1 ⟨pathTwo, 1, 30⟩, .getRouteById 1]
    (p := 1) (c := 1) (l := [(⟨pathOne, 1, 20⟩, 0), (⟨pathTwo, 1, 30⟩, 1)]) (by decide) (by decide)
    [1, 2, 1] (by decide)).2.2 ⟨pathOne, 1, 20⟩ (by decide)).1 (by decide)

end RouteTable

end RustP2p
