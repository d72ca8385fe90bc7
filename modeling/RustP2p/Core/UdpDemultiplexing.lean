import RustP2p.Core.UdpDelivery

/-!
# Demultiplexing is safe

What the dispatcher does with datagrams and registrations in every run, whatever the
order of the calls of `dispatch`, the receives, the drops of read halves, `clear` and
`unregister_local`.

* The read half of a registration is alive, and dropping a read half takes away no
  registration but its own.
* The datagrams of a tunnel are those of calls for its key, in the order of the calls,
  and the first is that of the call that made the tunnel.
* A datagram is lost only when the queue of its tunnel is full, or when its tunnel is
  refused or dropped (`Excuse`).
* A call of `dispatch` changes nothing of another key.
-/

namespace RustP2p

namespace UdpDispatcher

variable {d d' : UdpDispatcher} {e : UdpEvent}

/-! ## Dropping a read half -/

/-- The steps in which a read half is dropped, by the application or by the call whose
tunnel was refused. -/
inductive Drops (d : UdpDispatcher) (id : Nat) : UdpEvent → Prop where
  | unregister : Drops d id (.drop id)
  | receiver : Drops d id (.finishDrop id)
  | refused {index : Nat} {call : DispatchCall} {result : Bool}
      (running : d.calls[index]? = some call)
      (phase : call.phase = .refused id result ∨ call.phase = .closing id result) :
      Drops d id (.call index)

/-- The drop of a read half removes no registration but its own. -/
theorem Drops.keeps_route {id : Nat} (h : Drops d id e) (hmove : Move d e d') {k : RouteKey}
    {j : Nat} (hk : d.routes.get k = some j) (hj : j ≠ id) : d'.routes.get k = some j := by
  have hunregister (routeKey : RouteKey) : (d.unregister routeKey id).routes.get k = some j :=
    get_unregister.mpr ⟨hk, fun hown => hj hown.2⟩
  cases h with
  | unregister =>
      cases hmove with
      | accepting event => cases event
      | drop => exact hunregister _
      | forget event => cases event
  | receiver =>
      cases hmove with
      | accepting event => cases event
      | finishDrop => exact hk
      | forget event => cases event
  | @refused index call result hrunning hphase =>
      have hlooking {other : DispatchCall} (running : d.calls[index]? = some other) :
          other.phase ≠ .looking := by
        cases hrunning.symm.trans running
        rcases hphase with h | h <;> rw [h] <;> exact DispatchPhase.noConfusion
      cases hmove with
      | push running phase => exact absurd phase (hlooking running)
      | overflow running phase => exact absurd phase (hlooking running)
      | stale running phase => exact absurd phase (hlooking running)
      | register running phase => exact absurd phase (hlooking running)
      | offered => exact hk
      | refused => exact hk
      | unregister running phase =>
          cases hrunning.symm.trans running
          rcases hphase with h | h
          · cases phase.symm.trans h
            exact hunregister _
          · cases phase.symm.trans h
      | close => exact hk
      | accepting event => cases event
      | forget event => cases event

/-! ## The datagrams of a tunnel -/

/-- What was queued to a tunnel. -/
structure Delivered (d : UdpDispatcher) (id : Nat) (t : UdpTunnel) : Prop where
  dispatched : ∀ datagram ∈ t.entries, ∃ call, d.calls[datagram.1]? = some call ∧
    call.data = datagram.2 ∧ call.routeKey = t.routeKey
  once : (t.entries.map Prod.fst).Nodup
  /-- A call opened the tunnel, -/
  opened : ∃ (c : Nat) (call : DispatchCall), d.calls[c]? = some call ∧
    call.phase.status = .put id true
  /-- and its datagram is the first, so there is no second one. -/
  first : ∀ (c : Nat) (call : DispatchCall), d.calls[c]? = some call →
    call.phase.status = .put id true → t.entries.head? = some (c, call.data)
  elsewhere : ∀ j u, d.tunnels.get j = some u → j ≠ id →
    (u.entries.map Prod.fst).Disjoint (t.entries.map Prod.fst)

/-- The call of a datagram that was queued. -/
theorem Inv.call_of_entry (h : d.Inv) {id : Nat} {t : UdpTunnel} (ht : d.tunnels.get id = some t)
    {datagram : Datagram} (hmem : datagram ∈ t.entries) :
    ∃ call, d.calls[datagram.1]? = some call ∧ call.data = datagram.2 ∧
      call.routeKey = t.routeKey ∧ ∃ opened, call.phase.status = .put id opened := by
  obtain ⟨s, hfrom⟩ := h.sound.origin id _ (books_queues ht) datagram hmem
  obtain ⟨call, hcall, rfl⟩ := Option.map_eq_some_iff.mp hfrom.sender
  exact ⟨call, hcall, hfrom.item, hfrom.key, hfrom.put⟩

theorem Inv.delivered (h : d.Inv) {id : Nat} {t : UdpTunnel} (ht : d.tunnels.get id = some t) :
    d.Delivered id t where
  dispatched datagram hmem := by
    obtain ⟨call, hcall, hdata, hkey, -⟩ := h.call_of_entry ht hmem
    exact ⟨call, hcall, hdata, hkey⟩
  once := h.sound.once id _ (books_queues ht)
  opened := by
    obtain ⟨entry, s, -, hsender, hput⟩ := h.sound.first id _ (books_queues ht)
    obtain ⟨call, hcall, rfl⟩ := Option.map_eq_some_iff.mp hsender
    exact ⟨entry.1, call, hcall, hput⟩
  first c call hc hput := by
    obtain ⟨q, hq, -, -, hhead⟩ := h.sound.served c _ id true (books_senders hc) hput
    cases (books_queues ht).symm.trans hq
    exact hhead rfl
  elsewhere j u hu hj := by
    intro c hcu hct
    obtain ⟨x, hx, rfl⟩ := List.mem_map.mp hcu
    obtain ⟨y, hy, hxy⟩ := List.mem_map.mp hct
    obtain ⟨call, hcall, -, -, opened, hput⟩ := h.call_of_entry hu hx
    obtain ⟨call', hcall', -, -, opened', hput'⟩ := h.call_of_entry ht hy
    -- One call put its datagram into one queue.
    rw [hxy] at hcall'
    cases hcall.symm.trans hcall'
    rw [hput] at hput'
    injection hput' with hid
    exact hj hid

/-- The datagrams of a tunnel are in the order of the calls: behind the datagram of a
call that began at some moment of the run, there is none of a call that had left the
loop by then. -/
def InOrder (acceptCapacity : Nat) (es : List UdpEvent) (d : UdpDispatcher) : Prop :=
  ∀ pre routeKey data post m, es = pre ++ .dispatch routeKey data :: post →
    Transition.run step (new acceptCapacity) pre = some m →
    ∀ id t xs ys, d.tunnels.get id = some t → t.entries = xs ++ (m.calls.length, data) :: ys →
    ∀ datagram ∈ ys, ∀ call, m.calls[datagram.1]? = some call → call.phase = .looking

/-- A tunnel keeps what was queued to it, and more comes behind it. -/
def Grows (acceptCapacity : Nat) (es : List UdpEvent) (d : UdpDispatcher) : Prop :=
  ∀ pre post m, es = pre ++ post → Transition.run step (new acceptCapacity) pre = some m →
    ∀ id t₀, m.tunnels.get id = some t₀ →
    ∃ t, d.tunnels.get id = some t ∧ t.routeKey = t₀.routeKey ∧ t₀.entries <+: t.entries

theorem status_eq_waiting {phase : DispatchPhase} (h : phase.status = .waiting) :
    phase = .looking := by
  cases phase with
  | looking => rfl
  | done fate => cases fate <;> cases h
  | _ => cases h

/-- The part of a run behind a moment of it. -/
theorem run_suffix {acceptCapacity : Nat} {pre post : List UdpEvent} {m : UdpDispatcher}
    (h : Transition.run step (new acceptCapacity) (pre ++ post) = some d)
    (hm : Transition.run step (new acceptCapacity) pre = some m) :
    Transition.run step m post = some d := by
  rw [Transition.run_append, hm] at h
  exact h

section Run

variable {acceptCapacity : Nat} {es : List UdpEvent}

theorem inOrder_run (h : Transition.run step (new acceptCapacity) es = some d) :
    InOrder acceptCapacity es d := by
  rintro pre routeKey data post m rfl hm id t xs ys ht hentries datagram hmem call hcall
  have hinv := inv_run hm
  have hnew : m.books.senders m.calls.length = none := by
    simp only [books, List.getElem?_eq_none (Nat.le_refl _), Option.map_none]
  have hwaiting := Demux.waiting_of_after hinv.sound (books_run hinv (run_suffix h hm)) hnew
    (books_queues ht) hentries hmem (books_senders hcall)
  exact status_eq_waiting hwaiting

theorem grows_run (h : Transition.run step (new acceptCapacity) es = some d) :
    Grows acceptCapacity es d := by
  rintro pre post m rfl hm id t₀ ht₀
  have hinv := inv_run hm
  obtain ⟨more, hq⟩ := Demux.grows_run hinv.sound (books_run hinv (run_suffix h hm))
    (books_queues ht₀)
  obtain ⟨t, ht, hbook⟩ := Option.map_eq_some_iff.mp hq
  injection hbook with hkey hentries
  exact ⟨t, ht, hkey, more, hentries.symm⟩

end Run

/-! ## Lost datagrams -/

/-- The datagram of a call was received, or its read half can still receive it. -/
def Kept (d : UdpDispatcher) (c : Nat) : Prop :=
  ∃ id t, d.tunnels.get id = some t ∧
    (c ∈ t.received.map Prod.fst ∨ t.half.isAlive = true ∧ c ∈ t.queue.map Prod.fst)

/-- A call has left the loop, and nobody will receive its datagram. -/
def Lost (d : UdpDispatcher) (c : Nat) : Prop :=
  (∃ call, d.calls[c]? = some call ∧ call.phase ≠ .looking) ∧ ¬ d.Kept c

/-- A moment of the run that explains why the datagram of a call is lost. -/
inductive Excuse (acceptCapacity : Nat) (es : List UdpEvent) (d : UdpDispatcher) (c : Nat) :
    Prop where
  /-- The queue of the tunnel of its key was full. -/
  | full {pre post : List UdpEvent} {m : UdpDispatcher} {call : DispatchCall} {id : Nat}
      {t : UdpTunnel} (moment : es = pre ++ .call c :: post)
      (reached : Transition.run step (new acceptCapacity) pre = some m)
      (running : m.calls[c]? = some call) (looking : call.phase = .looking)
      (route : m.routes.get call.routeKey = some id) (tunnel : m.tunnels.get id = some t)
      (full : t.queue.length = TUNNEL_CHANNEL_CAPACITY)
  /-- The accept queue refused its tunnel, when the call that had made it offered it. -/
  | refused {pre post : List UdpEvent} {m : UdpDispatcher} {index : Nat} {call : DispatchCall}
      {id : Nat} {t : UdpTunnel} (tunnel : d.tunnels.get id = some t)
      (mem : c ∈ t.entries.map Prod.fst) (moment : es = pre ++ .call index :: post)
      (reached : Transition.run step (new acceptCapacity) pre = some m)
      (running : m.calls[index]? = some call) (offering : call.phase = .offering id)
      (refusal : m.acceptClosed = true ∨ m.acceptCapacity ≤ m.acceptQueue.length)
  /-- Its tunnel was dropped. -/
  | dropped {pre post : List UdpEvent} {id : Nat} {t : UdpTunnel}
      (tunnel : d.tunnels.get id = some t) (mem : c ∈ t.entries.map Prod.fst)
      (moment : es = pre ++ .drop id :: post)

/-- The application drops the read half of the tunnel. -/
def Dropped (d : UdpDispatcher) (id : Nat) : Prop :=
  ∃ t, d.tunnels.get id = some t ∧ (t.half = .dropping ∨ t.half = .dropped)

/-- The dispatcher drops the read half of the tunnel. -/
def Refused (d : UdpDispatcher) (id : Nat) : Prop :=
  ∃ t, d.tunnels.get id = some t ∧ (t.half = .refusing ∨ t.half = .refused)

/-- A call of `dispatch` has seen that the accept queue refused the tunnel. -/
def Refusing (d : UdpDispatcher) (index id : Nat) : Prop :=
  ∃ call, d.calls[index]? = some call ∧ call.phase.refusal = some id

/-- The call found the queue of its tunnel full. -/
def Overflowed (d : UdpDispatcher) (c : Nat) : Prop :=
  ∃ call, d.calls[c]? = some call ∧ call.phase.status = .rejected

/-- Where the read half of a tunnel is after a step. -/
inductive HalfChange (d : UdpDispatcher) (e : UdpEvent) (id : Nat) : ReadHalf → Prop where
  | same {t : UdpTunnel} {half : ReadHalf} (before : d.tunnels.get id = some t)
      (stays : t.half = half) : HalfChange d e id half
  | alive {half : ReadHalf} (alive : half.isAlive = true) : HalfChange d e id half
  | dropping (event : e = .drop id) : HalfChange d e id .dropping
  | dropped (before : d.Dropped id) : HalfChange d e id .dropped
  | refused {index : Nat} {half : ReadHalf} (refusing : d.Refusing index id)
      (refused : half = .refusing ∨ half = .refused) : HalfChange d e id half

theorem Move.halfChange (hmove : Move d e d') {id : Nat} {t : UdpTunnel}
    (ht : d'.tunnels.get id = some t) : HalfChange d e id t.half := by
  cases hmove.tunnelChange ht with
  | same before => exact .same before rfl
  | opened after =>
      subst after
      exact .alive rfl
  | pushed before room after =>
      subst after
      exact .same before rfl
  | received before queue after =>
      subst after
      exact .same before rfl
  | passed before alive after =>
      subst after
      exact .alive alive
  | dropping event before after =>
      subst after
      exact .dropping event
  | dropped before half after =>
      subst after
      exact .dropped ⟨_, before, Or.inl half⟩
  | refused running refusal before refused after =>
      subst after
      exact .refused ⟨_, running, refusal⟩ refused

/-- The step from which on the application drops the read half. -/
theorem Move.event_of_dropped (hmove : Move d e d') {id : Nat} (hbefore : ¬ d.Dropped id)
    (hafter : d'.Dropped id) : e = .drop id := by
  obtain ⟨t, ht, hhalf⟩ := hafter
  have hchange := hmove.halfChange ht
  generalize t.half = half at hchange hhalf
  cases hchange with
  | same before stays => exact absurd ⟨_, before, stays ▸ hhalf⟩ hbefore
  | alive alive => rcases hhalf with rfl | rfl <;> cases alive
  | dropping event => exact event
  | dropped before => exact absurd before hbefore
  | refused refusing refused =>
      rcases hhalf with rfl | rfl <;> rcases refused with h | h <;> cases h

/-- The step from which on the dispatcher drops the read half. -/
theorem Move.refusing_of_refused (hmove : Move d e d') {id : Nat} (hbefore : ¬ d.Refused id)
    (hafter : d'.Refused id) : ∃ index, d.Refusing index id := by
  obtain ⟨t, ht, hhalf⟩ := hafter
  have hchange := hmove.halfChange ht
  generalize t.half = half at hchange hhalf
  cases hchange with
  | same before stays => exact absurd ⟨_, before, stays ▸ hhalf⟩ hbefore
  | alive alive => rcases hhalf with rfl | rfl <;> cases alive
  | dropping => rcases hhalf with h | h <;> cases h
  | dropped => rcases hhalf with h | h <;> cases h
  | refused refusing => exact ⟨_, refusing⟩

/-- The step in which the accept queue refuses the tunnel. -/
theorem Move.refusal_of_refusing (hmove : Move d e d') (hregistered : d.Registered)
    {index id : Nat} (hbefore : ¬ d.Refusing index id) (hafter : d'.Refusing index id) :
    e = .call index ∧ (∃ call, d.calls[index]? = some call ∧ call.phase = .offering id) ∧
      (d.acceptClosed = true ∨ d.acceptCapacity ≤ d.acceptQueue.length) := by
  obtain ⟨call, hcall, hrefusal⟩ := hafter
  cases hmove.callChange hregistered hcall with
  | same before => exact absurd ⟨call, before, hrefusal⟩ hbefore
  | arrived looking =>
      rw [looking] at hrefusal
      cases hrefusal
  | @next call₀ _ event before after way =>
      subst after
      -- A phase with a refusal behind the first one keeps it.
      have hkept (h : call₀.phase.refusal = some id) : False := hbefore ⟨call₀, before, h⟩
      cases way with
      | refused phase refusal =>
          cases hrefusal
          exact ⟨event, ⟨call₀, before, phase⟩, refusal⟩
      | closing phase => exact (hkept (by rw [phase]; exact hrefusal)).elim
      | closed phase => exact (hkept (by rw [phase]; exact hrefusal)).elim
      | _ => cases hrefusal

/-- The step in which a call finds the queue full. -/
theorem Move.full_of_overflowed (hmove : Move d e d') (hinv : d.Inv) {c : Nat}
    (hbefore : ¬ d.Overflowed c) (hafter : d'.Overflowed c) :
    e = .call c ∧ ∃ call id t, d.calls[c]? = some call ∧ call.phase = .looking ∧
      d.routes.get call.routeKey = some id ∧ d.tunnels.get id = some t ∧
      t.queue.length = TUNNEL_CHANNEL_CAPACITY := by
  obtain ⟨call, hcall, hstatus⟩ := hafter
  cases hmove.callChange hinv.registered hcall with
  | same before => exact absurd ⟨call, before, hstatus⟩ hbefore
  | arrived looking =>
      rw [looking] at hstatus
      cases hstatus
  | @next call₀ _ event before after way =>
      subst after
      cases way with
      | @full id t phase route tunnel full =>
          exact ⟨event, call₀, id, t, before, phase, route, tunnel,
            Nat.le_antisymm (hinv.capacity id t tunnel) full⟩
      | _ => cases hstatus

section Run

variable {acceptCapacity : Nat} {es : List UdpEvent} {c id : Nat} {t : UdpTunnel}

theorem excuse_of_overflowed (h : Transition.run step (new acceptCapacity) es = some d)
    (hoverflowed : d.Overflowed c) : Excuse acceptCapacity es d c := by
  have hnew : ¬ (new acceptCapacity).Overflowed c := by
    intro hoverflowed
    obtain ⟨call, hcall, -⟩ := hoverflowed
    cases hcall
  obtain ⟨pre, e, post, m, m', hes, hm, hstep, hbefore, hafter⟩ :=
    Transition.run_flip (Q := (·.Overflowed c)) h hnew hoverflowed
  obtain ⟨rfl, call, id, t, hcall, hlooking, hroute, ht, hfull⟩ :=
    (Move.of_step hstep).full_of_overflowed (inv_run hm) hbefore hafter
  exact .full hes hm hcall hlooking hroute ht hfull

theorem excuse_of_dropped (h : Transition.run step (new acceptCapacity) es = some d)
    (ht : d.tunnels.get id = some t) (hmem : c ∈ t.entries.map Prod.fst)
    (hdropped : d.Dropped id) : Excuse acceptCapacity es d c := by
  have hnew : ¬ (new acceptCapacity).Dropped id := by
    intro hdropped
    obtain ⟨t, ht, -⟩ := hdropped
    cases ht
  obtain ⟨pre, e, post, m, m', hes, hm, hstep, hbefore, hafter⟩ :=
    Transition.run_flip (Q := (·.Dropped id)) h hnew hdropped
  obtain rfl := (Move.of_step hstep).event_of_dropped hbefore hafter
  exact .dropped ht hmem hes

theorem excuse_of_refused (h : Transition.run step (new acceptCapacity) es = some d)
    (ht : d.tunnels.get id = some t) (hmem : c ∈ t.entries.map Prod.fst)
    (hrefused : d.Refused id) : Excuse acceptCapacity es d c := by
  have hnew : ¬ (new acceptCapacity).Refused id := by
    intro hrefused
    obtain ⟨t, ht, -⟩ := hrefused
    cases ht
  obtain ⟨pre, e, post, m, m', hes, hm, hstep, hbefore, hafter⟩ :=
    Transition.run_flip (Q := (·.Refused id)) h hnew hrefused
  obtain ⟨index, hrefusing⟩ := (Move.of_step hstep).refusing_of_refused hbefore hafter
  -- Before the drop comes the refusal.
  have hnew' : ¬ (new acceptCapacity).Refusing index id := by
    intro hrefusing
    obtain ⟨call, hcall, -⟩ := hrefusing
    cases hcall
  obtain ⟨pre₁, e₁, post₁, m₁, m₁', hpre, hm₁, hstep₁, hbefore₁, hafter₁⟩ :=
    Transition.run_flip (Q := (·.Refusing index id)) hm hnew' hrefusing
  obtain ⟨rfl, ⟨call, hcall, hoffering⟩, hrefusal⟩ :=
    (Move.of_step hstep₁).refusal_of_refusing (inv_run hm₁).registered hbefore₁ hafter₁
  have hmoment : es = pre₁ ++ .call index :: (post₁ ++ e :: post) := by
    rw [hes, hpre, List.append_assoc, List.cons_append]
  exact .refused ht hmem hmoment hm₁ hcall hoffering hrefusal

/-- A datagram is not lost without an excuse. -/
theorem excuse_of_lost (h : Transition.run step (new acceptCapacity) es = some d)
    (hlost : d.Lost c) : Excuse acceptCapacity es d c := by
  obtain ⟨⟨call, hcall, hphase⟩, hkept⟩ := hlost
  cases hstatus : call.phase.status with
  | waiting => exact absurd (status_eq_waiting hstatus) hphase
  | rejected => exact excuse_of_overflowed h ⟨call, hcall, hstatus⟩
  | put id opened =>
      obtain ⟨t, ht, -, hentry⟩ := (inv_run h).tunnel_of_call hcall hstatus
      have hmem : c ∈ t.entries.map Prod.fst := List.mem_map_of_mem hentry
      have hqueued : t.half.isAlive = false := by
        by_contra halive
        refine hkept ⟨id, t, ht, ?_⟩
        rw [UdpTunnel.entries, List.map_append, List.mem_append] at hmem
        rcases hmem with hreceived | hqueue
        · exact Or.inl hreceived
        · exact Or.inr ⟨eq_true_of_ne_false halive, hqueue⟩
      cases hhalf : t.half with
      | fresh => rw [hhalf] at hqueued; cases hqueued
      | queued => rw [hhalf] at hqueued; cases hqueued
      | held => rw [hhalf] at hqueued; cases hqueued
      | dropping => exact excuse_of_dropped h ht hmem ⟨t, ht, Or.inl hhalf⟩
      | dropped => exact excuse_of_dropped h ht hmem ⟨t, ht, Or.inr hhalf⟩
      | refusing => exact excuse_of_refused h ht hmem ⟨t, ht, Or.inl hhalf⟩
      | refused => exact excuse_of_refused h ht hmem ⟨t, ht, Or.inr hhalf⟩

end Run

/-! ## Other keys -/

/-- The steps of the calls of `dispatch` for a key. -/
inductive Dispatches (d : UdpDispatcher) (k : RouteKey) : UdpEvent → Prop where
  | arrive {data : List UInt8} : Dispatches d k (.dispatch k data)
  | call {index : Nat} {call : DispatchCall} (running : d.calls[index]? = some call)
      (key : call.routeKey = k) : Dispatches d k (.call index)

/-- The registrations and the tunnels of other keys stay. -/
structure SameElsewhere (d d' : UdpDispatcher) (k : RouteKey) : Prop where
  routes : ∀ other, other ≠ k → d'.routes.get other = d.routes.get other
  tunnels : ∀ id t, t.routeKey ≠ k → (d'.tunnels.get id = some t ↔ d.tunnels.get id = some t)

/-- Only the registration of the key changes. -/
theorem SameElsewhere.of_routes {k : RouteKey} (htunnels : d'.tunnels = d.tunnels)
    (hroutes : ∀ other, other ≠ k → d'.routes.get other = d.routes.get other) :
    SameElsewhere d d' k :=
  ⟨hroutes, fun _ _ _ => by rw [htunnels]⟩

/-- A tunnel of the key changes too. -/
theorem SameElsewhere.of_insert {k : RouteKey} {id : Nat} {t : UdpTunnel}
    (htunnels : d'.tunnels = d.tunnels.insert id t) (hkey : t.routeKey = k)
    (hbefore : ∀ t₀, d.tunnels.get id = some t₀ → t₀.routeKey = k)
    (hroutes : ∀ other, other ≠ k → d'.routes.get other = d.routes.get other) :
    SameElsewhere d d' k where
  routes := hroutes
  tunnels j u hu := by
    rw [htunnels, DashMap.get_insert]
    split
    next hj =>
      subst hj
      constructor
      · intro hut
        cases hut
        exact absurd hkey hu
      · intro hold
        exact absurd (hbefore u hold) hu
    next => exact Iff.rfl

/-- A call of `dispatch` changes nothing of another key. -/
theorem Dispatches.sameElsewhere {k : RouteKey} (h : Dispatches d k e) (hinv : d.Inv)
    (hmove : Move d e d') : SameElsewhere d d' k := by
  cases h with
  | arrive =>
      cases hmove with
      | arrive => exact .of_routes rfl fun _ _ => rfl
      | accepting event => cases event
      | forget event => cases event
  | @call index call hrunning hkey =>
      subst hkey
      -- The tunnel of a call has its key.
      have howner {id : Nat} {opened : Bool} (hput : call.phase.status = .put id opened)
          (t : UdpTunnel) (ht : d.tunnels.get id = some t) : t.routeKey = call.routeKey := by
        obtain ⟨t₀, ht₀, hkey, -⟩ := hinv.tunnel_of_call hrunning hput
        cases ht.symm.trans ht₀
        exact hkey
      cases hmove with
      | push running phase route tunnel =>
          cases hrunning.symm.trans running
          obtain ⟨t₀, ht₀, hkey, -⟩ := hinv.registered _ _ route
          cases tunnel.symm.trans ht₀
          refine .of_insert rfl hkey ?_ fun _ _ => rfl
          intro t ht
          cases tunnel.symm.trans ht
          exact hkey
      | overflow => exact .of_routes rfl fun _ _ => rfl
      | stale running =>
          cases hrunning.symm.trans running
          refine .of_routes rfl fun other hother => ?_
          rw [DashMap.get_remove, if_neg hother]
      | register running =>
          cases hrunning.symm.trans running
          refine .of_insert rfl rfl ?_ fun other hother => ?_
          · intro t ht
            rw [hinv.fresh] at ht
            cases ht
          · exact (DashMap.get_insert d.routes other _ _).trans (if_neg hother)
      | offered running phase tunnel =>
          cases hrunning.symm.trans running
          have htunnel := howner (by rw [phase]; rfl)
          have hkey := htunnel _ tunnel
          exact .of_insert rfl hkey htunnel fun _ _ => rfl
      | refused => exact .of_routes rfl fun _ _ => rfl
      | unregister running phase tunnel =>
          cases hrunning.symm.trans running
          have htunnel := howner (by rw [phase]; rfl)
          have hkey := htunnel _ tunnel
          refine .of_insert rfl hkey htunnel fun other hother => ?_
          rw [← hkey] at hother
          exact (DashMap.get_removeIf d.routes other _ _).trans (if_neg fun h => hother h.1)
      | close running phase tunnel =>
          cases hrunning.symm.trans running
          have htunnel := howner (by rw [phase]; rfl)
          have hkey := htunnel _ tunnel
          exact .of_insert rfl hkey htunnel fun _ _ => rfl
      | accepting event => cases event
      | forget event => cases event

/-! ## The calls return -/

/-- The steps that a call has left at most. -/
def stepsLeft : DispatchPhase → Nat
  | .looking => 4
  | .offering _ => 3
  | .refused _ _ => 2
  | .closing _ _ => 1
  | .done _ _ => 0

/-- The call can go on, and is nearer to its end then. -/
def Returns (d : UdpDispatcher) (c : Nat) (call : DispatchCall) : Prop :=
  ∃ d' phase, step d (.call c) = some d' ∧ d'.calls[c]? = some { call with phase := phase } ∧
    stepsLeft phase < stepsLeft call.phase

/-- A call that can go on to a phase nearer to its end. -/
theorem Returns.of_goto {m : UdpDispatcher} {c : Nat} {call : DispatchCall} {phase : DispatchPhase}
    (hcall : d.calls[c]? = some call) (hstep : step d (.call c) = some (m.goto c call phase))
    (hcalls : m.calls = d.calls) (hleft : stepsLeft phase < stepsLeft call.phase) :
    d.Returns c call := by
  refine ⟨_, phase, hstep, ?_, hleft⟩
  rw [getElem?_goto m (hcalls ▸ hcall), if_pos rfl]

/-- One pass of the loop is enough. -/
theorem Inv.returns_of_looking (h : d.Inv) {c : Nat} {call : DispatchCall}
    (hcall : d.calls[c]? = some call) (hphase : call.phase = .looking) : d.Returns c call := by
  have hstep : d.step (.call c) = d.lookup c call := by
    simp only [UdpDispatcher.step, hcall, stepCall, hphase]
  have hleft : stepsLeft call.phase = 4 := by rw [hphase, stepsLeft]
  cases hroute : d.routes.get call.routeKey with
  | none =>
      simp only [lookup, hroute, register] at hstep
      exact .of_goto hcall hstep rfl (by rw [hleft, stepsLeft]; decide)
  | some id =>
      obtain ⟨t, ht, -, halive⟩ := h.registered _ _ hroute
      -- The read half is alive, so the queue is not closed.
      simp only [lookup, hroute, ht, UdpTunnel.trySend, ReadHalf.not_isClosed_of_isAlive halive,
        Bool.false_eq_true, if_false] at hstep
      by_cases hroom : t.queue.length < TUNNEL_CHANNEL_CAPACITY
      · rw [if_pos hroom] at hstep
        exact .of_goto hcall hstep rfl (by rw [hleft, stepsLeft]; decide)
      · rw [if_neg hroom] at hstep
        exact .of_goto hcall hstep rfl (by rw [hleft, stepsLeft]; decide)

theorem Inv.returns (h : d.Inv) {c : Nat} {call : DispatchCall} (hcall : d.calls[c]? = some call)
    (hrunning : call.phase.isDone = false) : d.Returns c call := by
  have hstep : d.step (.call c) = d.stepCall c call := by simp only [UdpDispatcher.step, hcall]
  cases hphase : call.phase with
  | looking => exact h.returns_of_looking hcall hphase
  | offering id =>
      obtain ⟨t, ht, -⟩ := h.tunnel_of_call hcall (by rw [hphase]; rfl)
      have hleft : stepsLeft call.phase = 3 := by rw [hphase, stepsLeft]
      simp only [stepCall, hphase, ht, Option.map_some, offer] at hstep
      split at hstep
      next => exact .of_goto hcall hstep rfl (by rw [hleft, stepsLeft]; decide)
      next =>
        split at hstep
        next => exact .of_goto hcall hstep rfl (by rw [hleft, stepsLeft]; decide)
        next => exact .of_goto hcall hstep rfl (by rw [hleft, stepsLeft]; decide)
  | refused id result =>
      obtain ⟨t, ht, -⟩ := h.tunnel_of_call hcall (by rw [hphase]; rfl)
      simp only [stepCall, hphase, ht, Option.map_some] at hstep
      exact .of_goto hcall hstep rfl (by rw [hphase, stepsLeft, stepsLeft]; decide)
  | closing id result =>
      obtain ⟨t, ht, -⟩ := h.tunnel_of_call hcall (by rw [hphase]; rfl)
      simp only [stepCall, hphase, ht, Option.map_some] at hstep
      exact .of_goto hcall hstep rfl (by rw [hphase, stepsLeft, stepsLeft]; decide)
  | done fate result =>
      rw [hphase] at hrunning
      cases hrunning

/-! ## The whole -/

/-- What holds of a run of the dispatcher and of the state it leads to. -/
structure Demultiplexed (acceptCapacity : Nat) (es : List UdpEvent) (d : UdpDispatcher) :
    Prop where
  registered : d.Registered
  unique : (d.routes.pairs.map Prod.fst).Nodup
  drops : ∀ id e d', step d e = some d' → Drops d id e →
    ∀ k j, d.routes.get k = some j → j ≠ id → d'.routes.get k = some j
  delivered : ∀ id t, d.tunnels.get id = some t → d.Delivered id t
  grows : Grows acceptCapacity es d
  inOrder : InOrder acceptCapacity es d
  excused : ∀ c, d.Lost c → Excuse acceptCapacity es d c
  elsewhere : ∀ k e d', step d e = some d' → Dispatches d k e → SameElsewhere d d' k
  returns : ∀ (c : Nat) (call : DispatchCall), d.calls[c]? = some call →
    call.phase.isDone = false → d.Returns c call

/-- Demultiplexing is safe in every run. -/
theorem udp_demultiplexing_safe {acceptCapacity : Nat} {es : List UdpEvent}
    (h : Transition.run step (new acceptCapacity) es = some d) :
    Demultiplexed acceptCapacity es d where
  registered := (inv_run h).registered
  unique := by
    rw [DashMap.pairs, List.map_map]
    exact d.routes.nodupKeys
  drops _ _ _ hstep hdrops _ _ hk hj := hdrops.keeps_route (.of_step hstep) hk hj
  delivered _ _ ht := (inv_run h).delivered ht
  grows := grows_run h
  inOrder := inOrder_run h
  excused _ hlost := excuse_of_lost h hlost
  elsewhere _ _ _ hstep hdispatches := hdispatches.sameElsewhere (inv_run h) (.of_step hstep)
  returns _ _ hcall hrunning := (inv_run h).returns hcall hrunning

/-- The key of the example. -/
def reopenedKey : RouteKey := ⟨.udp, .v4 ⟨0, 0, 0, 0⟩ 5000, .v4 ⟨10, 0, 0, 2⟩ 5000⟩

/-- A tunnel is dropped with a datagram in its queue.  The next datagram opens another
one before the receiver of the first is gone. -/
def reopenedRun : List UdpEvent :=
  [.dispatch reopenedKey [1], .call 0, .call 0, .dispatch reopenedKey [2], .call 1, .accept,
    .receive 1, .drop 1, .dispatch reopenedKey [3], .call 2, .call 2, .finishDrop 1]

/-- The registration of the second tunnel stays. -/
theorem udp_demultiplexing_safe_reopened :
    ∃ d, Transition.run step (new 1) reopenedRun = some d ∧
      d.routes.get reopenedKey = some 2 ∧ Demultiplexed 1 reopenedRun d := by
  obtain ⟨d, hd, hroute⟩ :
      ∃ d, Transition.run step (new 1) reopenedRun = some d ∧
        d.routes.get reopenedKey = some 2 := by
    decide
  exact ⟨d, hd, hroute, udp_demultiplexing_safe hd⟩

end UdpDispatcher

end RustP2p
