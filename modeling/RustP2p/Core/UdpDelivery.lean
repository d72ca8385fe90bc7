import RustP2p.Core.UdpDispatcher

/-!
# Where datagrams go

`books` forgets everything about the dispatcher but what was queued where.  There
the dispatcher is a demultiplexer, since a registration belongs to a tunnel of its
key (`books_step`), and what the library says about demultiplexers holds of it.

A registration is removed before the receiver of its read half is dropped, so the
read half of a registration is alive (`Registered`).  `CallChange` and `TunnelChange`
say what a step can do to a call and to a tunnel.  The invariant of a run (`Inv`) is
kept by every step because of them.
-/

namespace RustP2p

namespace UdpDispatcher

variable {d d' : UdpDispatcher} {e : UdpEvent}

/-! ## The books -/

/-- What the books say about a tunnel. -/
def bookTunnel (t : UdpTunnel) : Demux.Queue RouteKey (List UInt8) := ⟨t.routeKey, t.entries⟩

/-- What the books say about a call. -/
def bookCall (call : DispatchCall) : Demux.Sender RouteKey (List UInt8) :=
  ⟨call.routeKey, call.data, call.phase.status⟩

/-- The books of the dispatcher. -/
def books (d : UdpDispatcher) : Demux.Books RouteKey (List UInt8) where
  queues id := (d.tunnels.get id).map bookTunnel
  senders c := d.calls[c]?.map bookCall
  next := d.nextId

theorem books_queues {id : Nat} {t : UdpTunnel} (h : d.tunnels.get id = some t) :
    d.books.queues id = some (bookTunnel t) := by
  simp only [books, h, Option.map_some]

theorem books_senders {c : Nat} {call : DispatchCall} (h : d.calls[c]? = some call) :
    d.books.senders c = some (bookCall call) := by
  simp only [books, h, Option.map_some]

theorem get_update (d : UdpDispatcher) (id j : Nat) (t : UdpTunnel) :
    (d.update id t).tunnels.get j = if j = id then some t else d.tunnels.get j :=
  DashMap.get_insert d.tunnels j id t

theorem books_update (d : UdpDispatcher) (id : Nat) (t : UdpTunnel) :
    (d.update id t).books = d.books.write id (bookTunnel t) := by
  simp only [books, Demux.Books.write, Demux.Books.mk.injEq]
  refine ⟨?_, rfl, rfl⟩
  funext j
  rw [get_update, Function.update_apply]
  split <;> rfl

/-- A change that keeps what was queued is not booked. -/
theorem books_update_same {id : Nat} {t t' : UdpTunnel} (h : d.tunnels.get id = some t)
    (hbook : bookTunnel t' = bookTunnel t) : (d.update id t').books = d.books := by
  rw [books_update, hbook, Demux.write_self (books_queues h)]

theorem getElem?_goto (d : UdpDispatcher) {index : Nat} {call : DispatchCall}
    (running : d.calls[index]? = some call) (c : Nat) (phase : DispatchPhase) :
    (d.goto index call phase).calls[c]? =
      if c = index then some { call with phase := phase } else d.calls[c]? := by
  have hlength := (List.getElem?_eq_some_iff.mp running).1
  simp only [goto, List.getElem?_set, hlength, if_true, eq_comm]

theorem books_goto (d : UdpDispatcher) {index : Nat} {call : DispatchCall}
    (running : d.calls[index]? = some call) (phase : DispatchPhase) :
    (d.goto index call phase).books = d.books.settle index (bookCall call) phase.status := by
  simp only [books, Demux.Books.settle, Demux.Books.mk.injEq]
  refine ⟨rfl, ?_, rfl⟩
  funext c
  rw [getElem?_goto _ running, Function.update_apply]
  split <;> rfl

/-- A call that goes on without a decision is not booked. -/
theorem books_goto_same (d : UdpDispatcher) {index : Nat} {call : DispatchCall}
    (running : d.calls[index]? = some call) {phase : DispatchPhase}
    (hstatus : phase.status = call.phase.status) : (d.goto index call phase).books = d.books := by
  rw [books_goto d running, hstatus]
  exact Demux.settle_self (books_senders running)

/-- The same for a call that passes its tunnel on. -/
theorem books_move {m : UdpDispatcher} {index id : Nat} {call : DispatchCall} {t : UdpTunnel}
    {half : ReadHalf} {phase : DispatchPhase} (running : m.calls[index]? = some call)
    (tunnel : m.tunnels.get id = some t) (hstatus : phase.status = call.phase.status) :
    ((m.update id (t.move half)).goto index call phase).books = m.books := by
  have hupdate : (m.update id (t.move half)).books = m.books := books_update_same tunnel rfl
  rw [books_goto_same (m.update id (t.move half)) running hstatus, hupdate]

/-! ## Registrations -/

/-- A registration belongs to a tunnel of its key whose read half is alive. -/
def Registered (d : UdpDispatcher) : Prop :=
  ∀ k id, d.routes.get k = some id →
    ∃ t, d.tunnels.get id = some t ∧ t.routeKey = k ∧ t.half.isAlive = true

/-- Fewer registrations. -/
theorem Registered.of_routes (h : d.Registered) (htunnels : d'.tunnels = d.tunnels)
    (hroutes : ∀ k id, d'.routes.get k = some id → d.routes.get k = some id) :
    d'.Registered := by
  intro k id hk
  rw [htunnels]
  exact h k id (hroutes k id hk)

/-- A change of one tunnel.  If it is registered, its read half stays alive. -/
theorem Registered.update (h : d.Registered) {id : Nat} {t t' : UdpTunnel}
    (tunnel : d.tunnels.get id = some t) (hkey : t'.routeKey = t.routeKey)
    (halive : t.half.isAlive = true → (∃ k, d.routes.get k = some id) → t'.half.isAlive = true) :
    (d.update id t').Registered := by
  intro k j hk
  obtain ⟨t₀, ht₀, hkey₀, halive₀⟩ := h k j hk
  rw [get_update]
  by_cases hj : j = id
  · subst hj
    cases tunnel.symm.trans ht₀
    exact ⟨t', if_pos rfl, hkey.trans hkey₀, halive halive₀ ⟨k, hk⟩⟩
  · exact ⟨t₀, (if_neg hj).trans ht₀, hkey₀, halive₀⟩

theorem get_unregister {routeKey k : RouteKey} {id j : Nat} :
    (d.unregister routeKey id).routes.get k = some j ↔
      d.routes.get k = some j ∧ ¬ (k = routeKey ∧ j = id) := by
  simp only [unregister, DashMap.get_removeIf]
  by_cases hk : k = routeKey
  · subst hk
    cases hget : d.routes.get k with
    | none => simp
    | some i =>
        by_cases hi : i = id
        · simp [hi, eq_comm]
        · simp only [Option.any_some, hi, decide_false, Bool.false_eq_true, and_false, if_false,
            Option.some.injEq, true_and]
          constructor
          · rintro rfl
            exact ⟨rfl, hi⟩
          · exact And.left
  · simp [hk]

/-- A read half that unregisters itself has no registration left. -/
theorem Registered.not_registered (h : d.Registered) {id : Nat} {t : UdpTunnel}
    (tunnel : d.tunnels.get id = some t) (k : RouteKey) :
    (d.unregister t.routeKey id).routes.get k ≠ some id := by
  intro hk
  obtain ⟨hold, hother⟩ := get_unregister.mp hk
  obtain ⟨t₀, ht₀, hkey, -⟩ := h k id hold
  cases tunnel.symm.trans ht₀
  exact hother ⟨hkey.symm, rfl⟩

/-- A read half that is being dropped, and has unregistered itself. -/
theorem Registered.dropHalf (h : d.Registered) {id : Nat} {t : UdpTunnel}
    (tunnel : d.tunnels.get id = some t) (half : ReadHalf) :
    ((d.unregister t.routeKey id).update id (t.move half)).Registered := by
  have hunregistered : (d.unregister t.routeKey id).Registered :=
    h.of_routes rfl fun k j hk => (get_unregister.mp hk).1
  refine hunregistered.update tunnel rfl ?_
  intro _ hk
  obtain ⟨k, hk⟩ := hk
  exact absurd hk (h.not_registered tunnel k)

theorem Registered.register (h : d.Registered) (hfresh : d.tunnels.get d.nextId = none)
    (index : Nat) (call : DispatchCall) : (d.register index call).Registered := by
  have hget (j : Nat) : (d.register index call).tunnels.get j =
      if j = d.nextId then some (.udp call.routeKey (index, call.data)) else d.tunnels.get j :=
    DashMap.get_insert d.tunnels j d.nextId _
  intro k j hk
  have hk : (d.routes.insert call.routeKey d.nextId).get k = some j := hk
  rw [DashMap.get_insert] at hk
  split at hk
  next hkey =>
    cases hk
    exact ⟨_, (hget _).trans (if_pos rfl), hkey.symm, rfl⟩
  next =>
    obtain ⟨t, ht, hrest⟩ := h k j hk
    have hj : j ≠ d.nextId := by
      rintro rfl
      cases hfresh.symm.trans ht
    exact ⟨t, ((hget j).trans (if_neg hj)).trans ht, hrest⟩

/-! ## Calls and tunnels of a step -/

/-- How a call goes on, with what each way needs. -/
inductive Next (d d' : UdpDispatcher) (call : DispatchCall) : DispatchPhase → Prop where
  | queued {id : Nat} (phase : call.phase = .looking) : Next d d' call (.done (.queued id) true)
  | full {id : Nat} {t : UdpTunnel} (phase : call.phase = .looking)
      (route : d.routes.get call.routeKey = some id) (tunnel : d.tunnels.get id = some t)
      (full : TUNNEL_CHANNEL_CAPACITY ≤ t.queue.length) : Next d d' call (.done (.full id) true)
  | offering {id : Nat} (phase : call.phase = .looking) : Next d d' call (.offering id)
  | opened {id : Nat} (phase : call.phase = .offering id) :
      Next d d' call (.done (.opened id) true)
  | refused {id : Nat} {result : Bool} (phase : call.phase = .offering id)
      (refusal : d.acceptClosed = true ∨ d.acceptCapacity ≤ d.acceptQueue.length) :
      Next d d' call (.refused id result)
  | closing {id : Nat} {result : Bool} (phase : call.phase = .refused id result)
      (unregistered : ∀ k, d'.routes.get k ≠ some id) : Next d d' call (.closing id result)
  | closed {id : Nat} {result : Bool} (phase : call.phase = .closing id result) :
      Next d d' call (.done (.refused id) result)

/-- How a call can come to be what it is after a step. -/
inductive CallChange (d : UdpDispatcher) (e : UdpEvent) (d' : UdpDispatcher) (c : Nat)
    (call' : DispatchCall) : Prop where
  | same (before : d.calls[c]? = some call')
  | arrived (looking : call'.phase = .looking)
  | next {call : DispatchCall} {phase : DispatchPhase} (event : e = .call c)
      (before : d.calls[c]? = some call) (after : call' = { call with phase := phase })
      (way : Next d d' call phase)

/-- One call goes on, and the others stay. -/
theorem CallChange.of_goto {index c : Nat} {call call' : DispatchCall} {phase : DispatchPhase}
    (running : d.calls[index]? = some call)
    (hc : (d.goto index call phase).calls[c]? = some call') (hway : Next d d' call phase) :
    CallChange d (.call index) d' c call' := by
  rw [getElem?_goto _ running] at hc
  split at hc
  next hindex =>
    subst hindex
    exact .next rfl running (Option.some.inj hc).symm hway
  next => exact .same hc

theorem Move.callChange (h : Move d e d') (hregistered : d.Registered) {c : Nat}
    {call' : DispatchCall} (hc : d'.calls[c]? = some call') : CallChange d e d' c call' := by
  cases h with
  | arrive =>
      rw [List.getElem?_append] at hc
      split at hc
      next => exact .same hc
      next =>
        have hlooking := List.mem_singleton.mp (List.mem_of_getElem? hc)
        exact .arrived (by rw [hlooking])
  | push running phase => exact .of_goto running hc (.queued phase)
  | overflow running phase route tunnel full =>
      exact .of_goto running hc (.full phase route tunnel full)
  | stale => exact .same hc
  | register running phase => exact .of_goto running hc (.offering phase)
  | offered running phase => exact .of_goto running hc (.opened phase)
  | refused running phase refusal => exact .of_goto running hc (.refused phase refusal)
  | unregister running phase tunnel =>
      exact .of_goto running hc (.closing phase (hregistered.not_registered tunnel))
  | close running phase => exact .of_goto running hc (.closed phase)
  | accepting => exact .same hc
  | accepted => exact .same hc
  | received => exact .same hc
  | drop => exact .same hc
  | finishDrop => exact .same hc
  | forget => exact .same hc

/-- How a tunnel can come to be what it is after a step. -/
inductive TunnelChange (d : UdpDispatcher) (e : UdpEvent) (id : Nat) (t' : UdpTunnel) : Prop where
  | same (before : d.tunnels.get id = some t')
  | opened {routeKey : RouteKey} {datagram : Datagram} (after : t' = .udp routeKey datagram)
  | pushed {t : UdpTunnel} {datagram : Datagram} (before : d.tunnels.get id = some t)
      (room : t.queue.length < TUNNEL_CHANNEL_CAPACITY) (after : t' = t.push datagram)
  | received {t : UdpTunnel} {datagram : Datagram} {rest : List Datagram}
      (before : d.tunnels.get id = some t) (queue : t.queue = datagram :: rest)
      (after : t' = { t with queue := rest, received := t.received ++ [datagram] })
  /-- The read half goes to the accept queue or to the application. -/
  | passed {t : UdpTunnel} {half : ReadHalf} (before : d.tunnels.get id = some t)
      (alive : half.isAlive = true) (after : t' = t.move half)
  | dropping {t : UdpTunnel} (event : e = .drop id) (before : d.tunnels.get id = some t)
      (after : t' = t.move .dropping)
  | dropped {t : UdpTunnel} (before : d.tunnels.get id = some t) (half : t.half = .dropping)
      (after : t' = t.move .dropped)
  | refused {t : UdpTunnel} {half : ReadHalf} {index : Nat} {call : DispatchCall}
      (running : d.calls[index]? = some call) (refusal : call.phase.refusal = some id)
      (before : d.tunnels.get id = some t) (refused : half = .refusing ∨ half = .refused)
      (after : t' = t.move half)

/-- One tunnel changes, and the others stay. -/
theorem TunnelChange.of_update {m : UdpDispatcher} {id j : Nat} {t t' : UdpTunnel}
    (htunnels : m.tunnels = d.tunnels) (hj : (m.update id t).tunnels.get j = some t')
    (hchange : TunnelChange d e id t) : TunnelChange d e j t' := by
  rw [get_update, htunnels] at hj
  split at hj
  next hid =>
    cases hj
    rw [hid]
    exact hchange
  next => exact .same hj

theorem Move.tunnelChange (h : Move d e d') {j : Nat} {t' : UdpTunnel}
    (hj : d'.tunnels.get j = some t') : TunnelChange d e j t' := by
  cases h with
  | arrive => exact .same hj
  | push running phase route tunnel room => exact .of_update rfl hj (.pushed tunnel room rfl)
  | overflow => exact .same hj
  | stale => exact .same hj
  | register => exact .of_update rfl hj (.opened rfl)
  | offered running phase tunnel => exact .of_update rfl hj (.passed tunnel rfl rfl)
  | refused => exact .same hj
  | unregister running phase tunnel =>
      refine .of_update rfl hj (.refused running ?_ tunnel (Or.inl rfl) rfl)
      rw [phase, DispatchPhase.refusal]
  | close running phase tunnel =>
      refine .of_update rfl hj (.refused running ?_ tunnel (Or.inr rfl) rfl)
      rw [phase, DispatchPhase.refusal]
  | accepting => exact .same hj
  | accepted tunnel => exact .of_update rfl hj (.passed tunnel rfl rfl)
  | received tunnel queue => exact .of_update rfl hj (.received tunnel queue rfl)
  | drop tunnel => exact .of_update rfl hj (.dropping rfl tunnel rfl)
  | finishDrop tunnel dropping => exact .of_update rfl hj (.dropped tunnel dropping rfl)
  | forget => exact .same hj

/-! ## The invariant -/

theorem books_arrive (d : UdpDispatcher) (routeKey : RouteKey) (data : List UInt8) :
    ({ d with calls := d.calls ++ [⟨routeKey, data, .looking⟩] } : UdpDispatcher).books =
      { d.books with
        senders := Function.update d.books.senders d.calls.length
          (some ⟨routeKey, data, .waiting⟩) } := by
  simp only [books, Demux.Books.mk.injEq]
  refine ⟨trivial, ?_, trivial⟩
  funext c
  rw [Function.update_apply]
  split
  next hc => rw [hc, List.getElem?_concat_length, Option.map_some]; rfl
  next hc =>
    congr 1
    rcases Nat.lt_or_gt_of_ne hc with hlt | hgt
    · exact List.getElem?_append_left hlt
    · rw [List.getElem?_eq_none (Nat.le_of_lt hgt), List.getElem?_eq_none]
      rw [List.length_append]
      exact hgt

/-- What a run of the dispatcher keeps. -/
structure Inv (d : UdpDispatcher) : Prop where
  registered : d.Registered
  sound : Demux.Sound d.books
  capacity : ∀ id t, d.tunnels.get id = some t → t.queue.length ≤ TUNNEL_CHANNEL_CAPACITY
  /-- The receiver of a refused tunnel is dropped after the registration. -/
  unregistered : ∀ (c : Nat) (call : DispatchCall) id result, d.calls[c]? = some call →
    call.phase = .closing id result → ∀ k, d.routes.get k ≠ some id

theorem inv_new (acceptCapacity : Nat) : (new acceptCapacity).Inv where
  registered _ _ h := by cases h
  sound := Demux.sound_empty 1
  capacity _ _ h := by cases h
  unregistered _ _ _ _ h := by cases h

/-- The number of the next tunnel is not in use. -/
theorem Inv.fresh (h : d.Inv) : d.tunnels.get d.nextId = none := by
  have hfresh := h.sound.fresh d.nextId (Nat.le_refl _)
  simpa only [books, Option.map_eq_none_iff] using hfresh

/-- The tunnel of a call that queued its datagram. -/
theorem Inv.tunnel_of_call (h : d.Inv) {c id : Nat} {call : DispatchCall} {opened : Bool}
    (hc : d.calls[c]? = some call) (hput : call.phase.status = .put id opened) :
    ∃ t, d.tunnels.get id = some t ∧ t.routeKey = call.routeKey ∧
      (c, call.data) ∈ t.entries := by
  obtain ⟨q, hq, hkey, hmem, -⟩ := h.sound.served c _ id opened (books_senders hc) hput
  obtain ⟨t, ht, rfl⟩ := Option.map_eq_some_iff.mp hq
  exact ⟨t, ht, hkey, hmem⟩

/-- A step of the dispatcher is a step of its books. -/
theorem books_step (h : d.Inv) (hmove : Move d e d') : Demux.Step d.books d'.books := by
  cases hmove with
  | @arrive routeKey data =>
      rw [books_arrive]
      refine .arrive routeKey data ?_
      simp only [books, List.getElem?_eq_none (Nat.le_refl _), Option.map_none]
  | @push index id call t running phase route tunnel room =>
      obtain ⟨t₀, ht₀, hkey, -⟩ := h.registered _ _ route
      cases tunnel.symm.trans ht₀
      have hbook : bookTunnel (t.push (index, call.data)) =
          ⟨t.routeKey, t.entries ++ [(index, call.data)]⟩ := by
        simp only [bookTunnel, UdpTunnel.push, UdpTunnel.entries, List.append_assoc]
      rw [books_goto (d.update _ _) running, books_update, hbook]
      exact .put (books_senders running) (by rw [bookCall, phase]; rfl) (books_queues tunnel) hkey
  | overflow running phase =>
      rw [books_goto d running]
      exact .reject (books_senders running) (by rw [bookCall, phase]; rfl)
  | stale => exact .none
  | @register index call running phase vacant =>
      rw [register, books_goto, books_update]
      · exact .openQueue (books_senders running) (by rw [bookCall, phase]; rfl)
      · exact running
  | offered running phase tunnel => exact .of_eq (books_move running tunnel (by rw [phase]; rfl))
  | refused running phase => exact .of_eq (books_goto_same d running (by rw [phase]; rfl))
  | unregister running phase tunnel =>
      exact .of_eq (books_move running tunnel (by rw [phase]; rfl))
  | close running phase tunnel => exact .of_eq (books_move running tunnel (by rw [phase]; rfl))
  | accepting => exact .none
  | accepted tunnel => exact .of_eq (books_update_same tunnel rfl)
  | @received id t datagram rest tunnel queue =>
      refine .of_eq (books_update_same tunnel ?_)
      simp only [bookTunnel, UdpTunnel.entries, queue, List.append_assoc, List.cons_append,
        List.nil_append]
  | drop tunnel => exact .of_eq (books_update_same tunnel rfl)
  | finishDrop tunnel => exact .of_eq (books_update_same tunnel rfl)
  | forget => exact .none

/-- A registration is an old one, or of the tunnel that the step opened. -/
theorem Move.routes_back (hmove : Move d e d') {k : RouteKey} {id : Nat}
    (hk : d'.routes.get k = some id) : d.routes.get k = some id ∨ id = d.nextId := by
  cases hmove with
  | stale => exact Or.inl (DashMap.get_remove_eq_some.mp hk).2
  | @register index call running phase vacant =>
      have hk : (d.routes.insert call.routeKey d.nextId).get k = some id := hk
      rw [DashMap.get_insert] at hk
      split at hk
      next => exact Or.inr (Option.some.inj hk).symm
      next => exact Or.inl hk
  | unregister => exact Or.inl (get_unregister.mp hk).1
  | drop => exact Or.inl (get_unregister.mp hk).1
  | forget => exact Or.inl (DashMap.get_retain_eq_some.mp hk).1
  | _ => exact Or.inl hk

/-- The read half of a registration stays alive. -/
theorem Inv.registered_step (h : d.Inv) (hmove : Move d e d') : d'.Registered := by
  cases hmove with
  | arrive => exact h.registered
  | push running phase route tunnel =>
      exact h.registered.update tunnel rfl fun halive _ => halive
  | overflow => exact h.registered
  | stale =>
      exact h.registered.of_routes rfl fun k id hk => (DashMap.get_remove_eq_some.mp hk).2
  | register => exact h.registered.register h.fresh _ _
  | offered running phase tunnel => exact h.registered.update tunnel rfl fun _ _ => rfl
  | refused => exact h.registered
  | unregister running phase tunnel => exact h.registered.dropHalf tunnel .refusing
  | close running phase tunnel =>
      refine h.registered.update tunnel rfl fun _ hk => ?_
      obtain ⟨k, hk⟩ := hk
      exact absurd hk (h.unregistered _ _ _ _ running phase k)
  | accepting => exact h.registered
  | accepted tunnel => exact h.registered.update tunnel rfl fun _ _ => rfl
  | received tunnel => exact h.registered.update tunnel rfl fun halive _ => halive
  | drop tunnel => exact h.registered.dropHalf tunnel .dropping
  | finishDrop tunnel dropping =>
      refine h.registered.update tunnel rfl fun halive _ => ?_
      rw [dropping] at halive
      cases halive
  | forget =>
      exact h.registered.of_routes rfl fun k id hk => (DashMap.get_retain_eq_some.mp hk).1

/-- A queue is never longer than its capacity. -/
theorem Inv.capacity_step (h : d.Inv) (hmove : Move d e d') {id : Nat} {t : UdpTunnel}
    (ht : d'.tunnels.get id = some t) : t.queue.length ≤ TUNNEL_CHANNEL_CAPACITY := by
  have hmoved {t₀ : UdpTunnel} {half : ReadHalf} (before : d.tunnels.get id = some t₀)
      (after : t = t₀.move half) : t.queue.length ≤ TUNNEL_CHANNEL_CAPACITY := by
    subst after
    exact h.capacity id t₀ before
  cases hmove.tunnelChange ht with
  | same before => exact h.capacity id t before
  | opened after =>
      rw [after]
      exact Nat.succ_le_of_lt (Nat.zero_lt_succ 127)
  | pushed before room after =>
      rw [after, UdpTunnel.push, List.length_append]
      exact room
  | received before queue after =>
      have hcapacity := h.capacity id _ before
      rw [queue] at hcapacity
      rw [after]
      exact (Nat.le_succ _).trans hcapacity
  | passed before alive after => exact hmoved before after
  | dropping event before after => exact hmoved before after
  | dropped before half after => exact hmoved before after
  | refused running refusal before refused after => exact hmoved before after

theorem Inv.step (h : d.Inv) (hmove : Move d e d') : d'.Inv where
  registered := h.registered_step hmove
  sound := h.sound.step (books_step h hmove)
  capacity _ _ := h.capacity_step hmove
  unregistered c call id result hc hphase k hk := by
    cases hmove.callChange h.registered hc with
    | same before =>
        rcases hmove.routes_back hk with hold | hnew
        · exact h.unregistered c call id result before hphase k hold
        · -- The tunnel of the call is in use, so it is not the new one.
          obtain ⟨t, ht, -⟩ := h.tunnel_of_call before (by rw [hphase]; rfl)
          rw [hnew, h.fresh] at ht
          cases ht
    | arrived looking =>
        rw [looking] at hphase
        cases hphase
    | next event before after way =>
        subst after
        cases way with
        | closing phase unregistered =>
            cases hphase
            exact unregistered k hk
        | _ => cases hphase

/-- The invariant holds in every state of a run. -/
theorem inv_run {acceptCapacity : Nat} {es : List UdpEvent}
    (h : Transition.run step (new acceptCapacity) es = some d) : d.Inv :=
  Transition.run_invariant (fun _ _ _ hstep hinv => hinv.step (.of_step hstep)) h
    (inv_new acceptCapacity)

/-- The books of a run. -/
theorem books_run {m : UdpDispatcher} {es : List UdpEvent} (hinv : m.Inv)
    (h : Transition.run step m es = some d) : Relation.ReflTransGen Demux.Step m.books d.books := by
  refine (Transition.run_invariant
    (I := fun d => d.Inv ∧ Relation.ReflTransGen Demux.Step m.books d.books) ?_ h
    ⟨hinv, .refl⟩).2
  intro s e t hstep ih
  obtain ⟨hs, hbooks⟩ := ih
  have hmove := Move.of_step hstep
  exact ⟨hs.step hmove, hbooks.tail (books_step hs hmove)⟩

end UdpDispatcher

end RustP2p
