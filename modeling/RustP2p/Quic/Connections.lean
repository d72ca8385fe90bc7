import RustP2p.Quic.Registration

/-!
# The connection caches

`connection_to`, `connection_to_via`, `open_bi`, `open_bi_via`, the two cleanups
and the accept loop of `QuicEndpoint` in `quic.rs`, one map operation at a time.
The default functions and the ones for a route are the same calls here, for a
virtual peer without and with a key.  Where they differ, the branch on the key is
written out.

A cached connection that is not closed needs its address in `virtual_by_addr`,
or quinn cannot send on it.  Three things take the address away.

* A release while the connection is cached and alive.  `connection_to_at` looks
  for one before it releases.  `connection_to_via` and `open_bi_via` do not.
* A connection that is cached after its address was released, because another
  call for the same owner failed while its handshake was under way.
* A registration that found an address, and maps it after it was released and
  given to another owner.

`Safe` rules these out, and then every live cached connection has its address
(`live_connections_mapped`).
-/

namespace RustP2p

/-! ## Calls -/

/-- `Connection`: the stable id of the quinn connection and its remote address. -/
structure Connection where
  stableId : Nat
  remoteAddr : SocketAddr
deriving DecidableEq, Repr

/-- Who called. -/
inductive Origin where
  /-- `start_transport_loop`, which registers the sender of a packet. -/
  | inbound
  /-- `start_accept_loop`, with a connection from outside. -/
  | accept
  /-- `send_to` or `send_to_via`. -/
  | send
  /-- `open_bi` or `open_bi_via`, with the attempts that are left after this one. -/
  | openBi (left : Nat)
  /-- `cleanup_connection` or `cleanup_via_connection`. -/
  | cleanup (stableId : Nat)
deriving DecidableEq, Repr

/-- What a release belongs to. -/
inductive Releasing where
  | connectFailed
  | openFailed
  | cleanup
deriving DecidableEq, Repr

/-- Where a call is. -/
inductive ConnPhase where
  /-- Before `ensure_peer_reachable`, or before the look into the cache for a route. -/
  | start
  | register (phase : RegPhase)
  /-- Before the look into the cache of `connection_to_at`. -/
  | checkCache (addr : SocketAddr)
  /-- In `connect_quic_addr`. -/
  | connect (addr : SocketAddr)
  /-- Before the connection is cached. -/
  | cache (conn : Connection)
  /-- Before the entry in `connection_tasks`. -/
  | startTasks (conn : Connection)
  /-- Before `peer_for_virtual_addr`. -/
  | spawnTasks (conn : Connection)
  /-- In `quinn().open_bi` and `write_stream_frame`. -/
  | opening
  /-- Before the first operation after a failed handshake. -/
  | connectFailed
  /-- Before the first operation after a failed attempt of `open_bi`. -/
  | openFailed
  /-- Before the owner's entry is removed from `virtual_by_peer` or `via_virtual_addrs`. -/
  | release (releasing : Releasing)
  /-- Before the address is removed from `virtual_by_addr`. -/
  | free (addr : SocketAddr) (releasing : Releasing)
  /-- Before the cached connection is removed by a cleanup. -/
  | cleanup
  | done
deriving DecidableEq, Repr

/-- The address that a call holds. -/
def ConnPhase.held : ConnPhase → Option SocketAddr
  | register phase => phase.held
  | free addr _ => some addr
  | _ => none

/-- The address that the next operation maps again. -/
def ConnPhase.refreshes : ConnPhase → Option SocketAddr
  | register (.ensure addr) => some addr
  | _ => none

/-- The connection that the next operation caches. -/
def ConnPhase.caches : ConnPhase → Option Connection
  | cache conn => some conn
  | _ => none

/-- The next operation takes the address of the owner back. -/
def ConnPhase.releases : ConnPhase → Bool
  | release _ => true
  | _ => false

/-- A call. -/
structure ConnCall where
  owner : VirtualPeer
  origin : Origin
  phase : ConnPhase
deriving DecidableEq, Repr

namespace ConnCall

/-- The call at another place. -/
def goto (call : ConnCall) (phase : ConnPhase) : ConnCall := { call with phase := phase }

/-- The call after its registration returned `addr`. -/
def registered (call : ConnCall) (addr : SocketAddr) : ConnCall :=
  match call.origin, call.owner.routeKey with
  | .inbound, _ => call.goto .done
  | _, none => call.goto (.checkCache addr)
  | _, some _ => call.goto (.connect addr)

/-- The call when `connection_to` or `connection_to_via` has returned a connection. -/
def connected (call : ConnCall) : ConnCall :=
  match call.origin with
  | .openBi _ => call.goto .opening
  | _ => call.goto .done

/-- The call when `connection_to` or `connection_to_via` has returned an error. -/
def failed (call : ConnCall) : ConnCall :=
  match call.origin with
  | .openBi _ => call.goto .openFailed
  | _ => call.goto .done

/-- The next attempt of `open_bi`, if there is one. -/
def retry (call : ConnCall) : ConnCall :=
  match call.origin with
  | .openBi (left + 1) => { call with origin := .openBi left, phase := .start }
  | _ => call.goto .done

/-- The call after a release. -/
def released (call : ConnCall) : Releasing → ConnCall
  | .connectFailed => call.failed
  | .openFailed => call.retry
  | .cleanup => call.goto .done

end ConnCall

/-! ## The endpoint -/

/-- A reader task of a connection that has not ended. -/
structure ConnectionTask where
  stableId : Nat
  peerId : Option PeerId
  viaRouteKey : Option RouteKey
deriving DecidableEq, Repr

/-- `QuicEndpoint` with its caches, the connections that are closed, and its calls. -/
structure ConnEndpoint where
  socket : QuicPeerSocket
  connections : DashMap PeerId Connection
  viaConnections : DashMap (PeerId × RouteKey) Connection
  connectionTasks : DashMap Nat Unit
  tasks : List ConnectionTask
  closed : List Nat
  nextId : Nat
  calls : DashMap Nat ConnCall

/-- What can happen next. -/
inductive ConnEvent where
  /-- The transport loop registers the sender of a packet. -/
  | inbound (id : Nat) (peerId : PeerId)
  /-- A connection from this address is accepted. -/
  | accept (id : Nat) (addr : SocketAddr)
  /-- `send_to` or `send_to_via` is called. -/
  | send (id : Nat) (owner : VirtualPeer)
  /-- `open_bi` or `open_bi_via` is called. -/
  | openBi (id : Nat) (owner : VirtualPeer)
  /-- A reader task of a closed connection ends, and cleans up. -/
  | taskEnd (id index : Nat)
  /-- A connection is closed. -/
  | close (stableId : Nat)
  /-- A call goes on. -/
  | advance (id : Nat) (candidate : SocketAddr) (ok : Bool)
deriving DecidableEq, Repr

namespace ConnEndpoint

/-- A new endpoint. -/
def new : ConnEndpoint := ⟨.new, ∅, ∅, ∅, [], [], 0, ∅⟩

/-- `Connection::is_closed`. -/
def isClosed (ep : ConnEndpoint) (conn : Connection) : Bool := conn.stableId ∈ ep.closed

/-- The cached connection of a virtual peer. -/
def cached (ep : ConnEndpoint) (v : VirtualPeer) : Option Connection :=
  match v.routeKey with
  | none => ep.connections.get v.peerId
  | some routeKey => ep.viaConnections.get (v.peerId, routeKey)

/-- The cached connection of a virtual peer is not closed. -/
def hasActive (ep : ConnEndpoint) (v : VirtualPeer) : Bool :=
  (ep.cached v).any fun conn => !ep.isClosed conn

/-- `insert` on the cache of a virtual peer. -/
def insertCached (ep : ConnEndpoint) (v : VirtualPeer) (conn : Connection) : ConnEndpoint :=
  match v.routeKey with
  | none => { ep with connections := ep.connections.insert v.peerId conn }
  | some routeKey =>
      { ep with viaConnections := ep.viaConnections.insert (v.peerId, routeKey) conn }

/-- `remove_if` on the cache of a virtual peer. -/
def removeCachedIf (ep : ConnEndpoint) (v : VirtualPeer) (f : Connection → Bool) : ConnEndpoint :=
  match v.routeKey with
  | none => { ep with connections := ep.connections.removeIf v.peerId f }
  | some routeKey =>
      { ep with viaConnections := ep.viaConnections.removeIf (v.peerId, routeKey) f }

/-- The state of a call. -/
def put (ep : ConnEndpoint) (id : Nat) (call : ConnCall) : ConnEndpoint :=
  { ep with calls := ep.calls.insert id call }

/-- The next map operation of a call.  `candidate` is the address that an allocation tries.
`ok` is the outcome of what is not a map operation: whether the peer is reachable, the
handshake succeeds, or the stream opens. -/
def advance (ep : ConnEndpoint) (id : Nat) (call : ConnCall) (candidate : SocketAddr)
    (ok : Bool) : ConnEndpoint :=
  match call.phase with
  | .start =>
      match call.owner.routeKey with
      | none => if ok then ep.put id (call.goto (.register .lookup)) else ep.put id call.failed
      | some _ =>
          if ep.hasActive call.owner then ep.put id call.connected
          else ep.put id (call.goto (.register .lookup))
  | .register phase =>
      let ep' := { ep with socket := (phase.step ep.socket call.owner candidate).2 }
      match (phase.step ep.socket call.owner candidate).1 with
      | .done addr => ep'.put id (call.registered addr)
      | phase => ep'.put id (call.goto (.register phase))
  | .checkCache addr =>
      if ep.hasActive call.owner then ep.put id call.connected
      else ep.put id (call.goto (.connect addr))
  | .connect addr =>
      if ok then
        { ep with nextId := ep.nextId + 1 }.put id (call.goto (.cache ⟨ep.nextId, addr⟩))
      else ep.put id (call.goto .connectFailed)
  | .cache conn => (ep.insertCached call.owner conn).put id (call.goto (.startTasks conn))
  | .startTasks conn =>
      let ep' := { ep with connectionTasks := ep.connectionTasks.insert conn.stableId () }
      match ep.connectionTasks.get conn.stableId with
      | some _ => ep'.put id call.connected
      | none => ep'.put id (call.goto (.spawnTasks conn))
  | .spawnTasks conn =>
      let task : ConnectionTask :=
        ⟨conn.stableId, ep.socket.peerForVirtualAddr conn.remoteAddr, call.owner.routeKey⟩
      { ep with tasks := ep.tasks ++ [task, task] }.put id call.connected
  | .opening => if ok then ep.put id (call.goto .done) else ep.put id (call.goto .openFailed)
  | .connectFailed =>
      match call.owner.routeKey with
      | none =>
          if ep.hasActive call.owner then ep.put id call.failed
          else ep.put id (call.goto (.release .connectFailed))
      | some _ =>
          (ep.removeCachedIf call.owner ep.isClosed).put id (call.goto (.release .connectFailed))
  | .openFailed =>
      let ep' := ep.removeCachedIf call.owner ep.isClosed
      match call.owner.routeKey with
      | none =>
          if (ep.cached call.owner).any ep.isClosed then
            ep'.put id (call.goto (.release .openFailed))
          else ep'.put id call.retry
      | some _ => ep'.put id (call.goto (.release .openFailed))
  | .release releasing =>
      match ep.socket.published call.owner with
      | none => ep.put id (call.released releasing)
      | some addr =>
          { ep with socket := ep.socket.retract call.owner }.put id
            (call.goto (.free addr releasing))
  | .free addr releasing =>
      { ep with socket :=
        { ep.socket with virtualByAddr := ep.socket.virtualByAddr.remove addr } }.put id
          (call.released releasing)
  | .cleanup =>
      match call.origin with
      | .cleanup stableId =>
          let ep' := ep.removeCachedIf call.owner fun conn => conn.stableId = stableId
          if (ep.cached call.owner).any fun conn => conn.stableId = stableId then
            ep'.put id (call.goto (.release .cleanup))
          else ep'.put id (call.goto .done)
      | _ => ep
  | .done => ep

/-- A new call, if the number is not in use. -/
def call (ep : ConnEndpoint) (id : Nat) (call : ConnCall) : Option ConnEndpoint :=
  if ep.calls.get id = none then some (ep.put id call) else none

/-- The endpoint after an event, if the event can happen. -/
def step (ep : ConnEndpoint) : ConnEvent → Option ConnEndpoint
  | .inbound id peerId => ep.call id ⟨⟨peerId, none⟩, .inbound, .register .lookup⟩
  | .accept id addr =>
      -- the owner of an accepted connection is not known, and nothing is cached for it
      { ep with nextId := ep.nextId + 1 }.call id
        ⟨⟨⟨""⟩, none⟩, .accept, .startTasks ⟨ep.nextId, addr⟩⟩
  | .send id owner => ep.call id ⟨owner, .send, .start⟩
  | .openBi id owner => ep.call id ⟨owner, .openBi 1, .start⟩
  | .taskEnd id index =>
      match ep.tasks[index]? with
      | none => none
      | some task =>
          if task.stableId ∈ ep.closed then
            let ep' := { ep with
              tasks := ep.tasks.eraseIdx index
              connectionTasks := ep.connectionTasks.remove task.stableId }
            match task.peerId with
            | none => some ep'
            | some peerId =>
                ep'.call id ⟨⟨peerId, task.viaRouteKey⟩, .cleanup task.stableId, .cleanup⟩
          else none
  | .close stableId => some { ep with closed := stableId :: ep.closed }
  | .advance id candidate ok =>
      match ep.calls.get id with
      | none => none
      | some call => some (ep.advance id call candidate ok)

/-! ## What each part keeps -/

/-- The addresses that the calls hold. -/
def held (ep : ConnEndpoint) : Holdings := fun i =>
  (ep.calls.get i).bind fun call => call.phase.held.map (call.owner, ·)

/-- The maps are coherent, and the address of a live cached connection is the published one of
its owner. -/
structure Invariant (ep : ConnEndpoint) : Prop where
  coherent : ep.socket.Coherent ep.held
  live : ∀ v conn, ep.cached v = some conn → ep.isClosed conn = false →
    ep.socket.published v = some conn.remoteAddr

/-- What the next operation of a call may do.  The address that it maps again is its owner's,
and so is the address of the connection that it caches, unless this one is closed.  It does
not release the address of an owner that has a live connection. -/
structure Allowed (ep : ConnEndpoint) (call : ConnCall) : Prop where
  refreshes : ∀ addr ∈ call.phase.refreshes, ep.socket.published call.owner = some addr
  caches : ∀ conn ∈ call.phase.caches,
    ep.isClosed conn = true ∨ ep.socket.published call.owner = some conn.remoteAddr
  releases : call.phase.releases = true → ep.hasActive call.owner = false

/-- An event is safe if it is not an operation of a call, or one that is allowed. -/
def Safe (ep : ConnEndpoint) : ConnEvent → Prop
  | .advance id _ _ => ∀ call ∈ ep.calls.get id, ep.Allowed call
  | _ => True

instance (ep : ConnEndpoint) (call : ConnCall) : Decidable (ep.Allowed call) :=
  decidable_of_iff
    ((∀ addr ∈ call.phase.refreshes, ep.socket.published call.owner = some addr) ∧
      (∀ conn ∈ call.phase.caches,
        ep.isClosed conn = true ∨ ep.socket.published call.owner = some conn.remoteAddr) ∧
      (call.phase.releases = true → ep.hasActive call.owner = false))
    ⟨fun h => ⟨h.1, h.2.1, h.2.2⟩, fun h => ⟨h.refreshes, h.caches, h.releases⟩⟩

instance (ep : ConnEndpoint) (e : ConnEvent) : Decidable (ep.Safe e) :=
  match e with
  | .advance id _ _ => inferInstanceAs (Decidable (∀ call ∈ ep.calls.get id, ep.Allowed call))
  | .inbound _ _ => isTrue trivial
  | .accept _ _ => isTrue trivial
  | .send _ _ => isTrue trivial
  | .openBi _ _ => isTrue trivial
  | .taskEnd _ _ => isTrue trivial
  | .close _ => isTrue trivial

section Parts

variable {ep ep' : ConnEndpoint} {id : Nat} {call call' : ConnCall} {v : VirtualPeer}

theorem cached_insertCached (ep : ConnEndpoint) (v w : VirtualPeer) (conn : Connection) :
    (ep.insertCached v conn).cached w = if w = v then some conn else ep.cached w := by
  obtain ⟨p, k⟩ := v
  obtain ⟨q, k'⟩ := w
  cases k <;> cases k' <;> simp [insertCached, cached, DashMap.get_insert]

theorem cached_removeCachedIf {f : Connection → Bool} {w : VirtualPeer} {conn : Connection}
    (h : (ep.removeCachedIf v f).cached w = some conn) : ep.cached w = some conn := by
  obtain ⟨p, k⟩ := v
  obtain ⟨q, k'⟩ := w
  cases k with
  | none =>
      cases k' with
      | none =>
          simp only [removeCachedIf, cached, DashMap.get_removeIf] at h ⊢
          split at h
          next => cases h
          next => exact h
      | some k' => exact h
  | some k =>
      cases k' with
      | none => exact h
      | some k' =>
          simp only [removeCachedIf, cached, DashMap.get_removeIf] at h ⊢
          split at h
          next => cases h
          next => exact h

/-- What the calls hold when one of them is at another place. -/
theorem held_put (ep : ConnEndpoint) (id : Nat) (call : ConnCall) (j : Nat) :
    (ep.put id call).held j =
      Function.update ep.held id (call.phase.held.map (call.owner, ·)) j := by
  simp only [held, put, DashMap.get_insert, Function.update_apply]
  split <;> rfl

theorem held_eq (h : ep.calls.get id = some call) :
    ep.held id = call.phase.held.map (call.owner, ·) := by
  simp only [held, h, Option.bind_some]

/-- A call at another place, with maps that are coherent with what it then holds. -/
theorem Invariant.put
    (hcoherent : ep.socket.Coherent
      (Function.update ep.held id (call.phase.held.map (call.owner, ·))))
    (hlive : ∀ v conn, ep.cached v = some conn → ep.isClosed conn = false →
      ep.socket.published v = some conn.remoteAddr) : (ep.put id call).Invariant where
  coherent := hcoherent.congr (fun _ => rfl) (fun _ => rfl) (held_put ep id call)
  live := hlive

/-- A call that holds nothing before and after. -/
theorem Invariant.goto (h : ep.Invariant) (hid : ep.held id = none)
    (hheld : call.phase.held = none) : (ep.put id call).Invariant := by
  refine .put ?_ h.live
  rw [hheld]
  exact h.coherent.keep hid

/-- Connections that leave the caches, and what is neither an address nor cached. -/
theorem Invariant.shrink (h : ep.Invariant) (hsocket : ep'.socket = ep.socket)
    (hcalls : ep'.calls = ep.calls) (hclosed : ∀ conn, ep.isClosed conn = true →
      ep'.isClosed conn = true)
    (hcached : ∀ v conn, ep'.cached v = some conn → ep.cached v = some conn) : ep'.Invariant where
  coherent := by
    refine h.coherent.congr ?_ ?_ ?_
    · intro b
      rw [hsocket]
    · intro w
      rw [hsocket]
    · intro j
      simp only [held, hcalls]
  live := by
    intro v conn hconn halive
    rw [hsocket]
    refine h.live v conn (hcached v conn hconn) ?_
    cases hold : ep.isClosed conn with
    | false => rfl
    | true =>
        rw [hclosed conn hold] at halive
        cases halive

theorem held_registered (call : ConnCall) (addr : SocketAddr) :
    (call.registered addr).phase.held = none := by
  simp only [ConnCall.registered]
  split <;> rfl

theorem held_connected (call : ConnCall) : call.connected.phase.held = none := by
  simp only [ConnCall.connected]
  split <;> rfl

theorem held_failed (call : ConnCall) : call.failed.phase.held = none := by
  simp only [ConnCall.failed]
  split <;> rfl

theorem held_retry (call : ConnCall) : call.retry.phase.held = none := by
  simp only [ConnCall.retry]
  split <;> rfl

theorem held_released (call : ConnCall) (releasing : Releasing) :
    (call.released releasing).phase.held = none := by
  cases releasing with
  | connectFailed => exact held_failed call
  | openFailed => exact held_retry call
  | cleanup => rfl

/-- Removing from a cache. -/
theorem Invariant.removeCachedIf (h : ep.Invariant) (v : VirtualPeer) (f : Connection → Bool) :
    (ep.removeCachedIf v f).Invariant ∧ (ep.removeCachedIf v f).held = ep.held := by
  have hsame : (ep.removeCachedIf v f).socket = ep.socket ∧
      (ep.removeCachedIf v f).calls = ep.calls ∧ (ep.removeCachedIf v f).closed = ep.closed := by
    simp only [ConnEndpoint.removeCachedIf]
    split <;> exact ⟨rfl, rfl, rfl⟩
  obtain ⟨hsocket, hcalls, hclosed⟩ := hsame
  refine ⟨h.shrink hsocket hcalls ?_ fun w conn => cached_removeCachedIf, ?_⟩
  · intro conn hconn
    simp only [isClosed, hclosed]
    exact hconn
  · funext j
    simp only [held, hcalls]

/-- A registration goes on. -/
theorem Invariant.register (h : ep.Invariant) {phase : RegPhase} {candidate : SocketAddr}
    (hid : ep.held id = phase.held.map (call.owner, ·))
    (hensure : ∀ addr, phase = .ensure addr → ep.socket.published call.owner = some addr)
    (hphase : call'.phase.held.map (call'.owner, ·) =
      (phase.step ep.socket call.owner candidate).1.held.map (call.owner, ·)) :
    ({ ep with socket := (phase.step ep.socket call.owner candidate).2 }.put id
      call').Invariant := by
  refine .put ?_ ?_
  · rw [hphase]
    exact h.coherent.register hid hensure
  · intro w conn hconn halive
    exact QuicPeerSocket.published_regStep phase (h.live w conn hconn halive)

/-- A connection is cached at the published address of its owner, unless it is closed. -/
theorem Invariant.insertCached (h : ep.Invariant) {conn : Connection}
    (hsafe : ep.isClosed conn = true ∨ ep.socket.published v = some conn.remoteAddr) :
    (ep.insertCached v conn).Invariant ∧ (ep.insertCached v conn).held = ep.held := by
  have hsame : (ep.insertCached v conn).socket = ep.socket ∧
      (ep.insertCached v conn).calls = ep.calls ∧
      (ep.insertCached v conn).closed = ep.closed := by
    simp only [ConnEndpoint.insertCached]
    split <;> exact ⟨rfl, rfl, rfl⟩
  obtain ⟨hsocket, hcalls, hclosed⟩ := hsame
  have hheld : (ep.insertCached v conn).held = ep.held := by
    funext j
    simp only [held, hcalls]
  refine ⟨⟨?_, ?_⟩, hheld⟩
  · rw [hsocket, hheld]
    exact h.coherent
  · intro w conn' hconn halive
    simp only [isClosed, hclosed] at halive
    rw [cached_insertCached] at hconn
    rw [hsocket]
    split at hconn
    next hw =>
      cases hconn
      rcases hsafe with hdead | hpub
      · rw [isClosed] at hdead
        rw [hdead] at halive
        cases halive
      · rw [hw]
        exact hpub
    next => exact h.live w conn' hconn halive

/-- The published address of an owner without a live connection is taken back. -/
theorem Invariant.take (h : ep.Invariant) (hid : ep.held id = none)
    (hactive : ep.hasActive call.owner = false) {addr : SocketAddr}
    (hpub : ep.socket.published call.owner = some addr) {releasing : Releasing} :
    ({ ep with socket := ep.socket.retract call.owner }.put id
      (call.goto (.free addr releasing))).Invariant := by
  refine .put (h.coherent.take hid hpub) ?_
  intro w conn hconn halive
  have hcached : ep.cached w = some conn := hconn
  have hne : w ≠ call.owner := by
    intro heq
    have halive' : ep.isClosed conn = false := halive
    rw [hasActive, ← heq, hcached, Option.any_some, halive'] at hactive
    cases hactive
  rw [QuicPeerSocket.published_retract, if_neg hne]
  exact h.live w conn hcached halive

/-- The address that a release took back is freed. -/
theorem Invariant.free (h : ep.Invariant) {addr : SocketAddr}
    (hid : ep.held id = some (v, addr)) (hheld : call'.phase.held = none) :
    ({ ep with socket :=
      { ep.socket with virtualByAddr := ep.socket.virtualByAddr.remove addr } }.put id
        call').Invariant := by
  refine .put ?_ h.live
  rw [hheld]
  exact h.coherent.free hid

end Parts

/-! ## What a step keeps -/

section Phases

variable {ep : ConnEndpoint} {id : Nat} {call : ConnCall} {candidate : SocketAddr} {ok : Bool}

/-- A call begins. -/
theorem Invariant.advance_start (h : ep.Invariant) (hid : ep.held id = none)
    (hphase : call.phase = .start) : (ep.advance id call candidate ok).Invariant := by
  simp only [advance, hphase]
  split
  next =>
    split
    next => exact h.goto hid rfl
    next => exact h.goto hid (held_failed call)
  next =>
    split
    next => exact h.goto hid (held_connected call)
    next => exact h.goto hid rfl

/-- The registration of a call maps an address again only if it is its owner's. -/
theorem Invariant.advance_register (h : ep.Invariant) (hallowed : ep.Allowed call)
    {phase : RegPhase} (hid : ep.held id = phase.held.map (call.owner, ·))
    (hphase : call.phase = .register phase) : (ep.advance id call candidate ok).Invariant := by
  have hensure : ∀ addr, phase = .ensure addr →
      ep.socket.published call.owner = some addr := by
    intro addr haddr
    exact hallowed.refreshes addr (by rw [hphase, haddr]; rfl)
  simp only [advance, hphase]
  split
  next addr hdone =>
    refine h.register hid hensure ?_
    rw [held_registered, hdone]
    rfl
  next => exact h.register hid hensure rfl

/-- A connection is cached, and its tasks are started. -/
theorem Invariant.advance_cache (h : ep.Invariant) (hallowed : ep.Allowed call)
    (hid : ep.held id = none) {conn : Connection} (hphase : call.phase = .cache conn) :
    (ep.advance id call candidate ok).Invariant := by
  simp only [advance, hphase]
  obtain ⟨hinsert, hheld⟩ := h.insertCached (hallowed.caches conn (by rw [hphase]; rfl))
  exact hinsert.goto (by rw [hheld]; exact hid) rfl

theorem Invariant.advance_startTasks (h : ep.Invariant) (hid : ep.held id = none)
    {conn : Connection} (hphase : call.phase = .startTasks conn) :
    (ep.advance id call candidate ok).Invariant := by
  simp only [advance, hphase]
  split
  next => exact Invariant.goto ⟨h.coherent, h.live⟩ hid (held_connected call)
  next => exact Invariant.goto ⟨h.coherent, h.live⟩ hid rfl

/-- A handshake has failed. -/
theorem Invariant.advance_connectFailed (h : ep.Invariant) (hid : ep.held id = none)
    (hphase : call.phase = .connectFailed) : (ep.advance id call candidate ok).Invariant := by
  simp only [advance, hphase]
  split
  next =>
    split
    next => exact h.goto hid (held_failed call)
    next => exact h.goto hid rfl
  next =>
    obtain ⟨hremove, hheld⟩ := h.removeCachedIf call.owner ep.isClosed
    exact hremove.goto (by rw [hheld]; exact hid) rfl

/-- An attempt to open a stream has failed. -/
theorem Invariant.advance_openFailed (h : ep.Invariant) (hid : ep.held id = none)
    (hphase : call.phase = .openFailed) : (ep.advance id call candidate ok).Invariant := by
  simp only [advance, hphase]
  obtain ⟨hremove, hheld⟩ := h.removeCachedIf call.owner ep.isClosed
  rw [← hheld] at hid
  split
  next =>
    split
    next => exact hremove.goto hid rfl
    next => exact hremove.goto hid (held_retry call)
  next => exact hremove.goto hid rfl

/-- An address is taken back from an owner without a live connection. -/
theorem Invariant.advance_release (h : ep.Invariant) (hallowed : ep.Allowed call)
    (hid : ep.held id = none) {releasing : Releasing} (hphase : call.phase = .release releasing) :
    (ep.advance id call candidate ok).Invariant := by
  simp only [advance, hphase]
  split
  next => exact h.goto hid (held_released call releasing)
  next addr hpub => exact h.take hid (hallowed.releases (by rw [hphase]; rfl)) hpub

theorem Invariant.advance_cleanup (h : ep.Invariant) (hid : ep.held id = none)
    (hphase : call.phase = .cleanup) : (ep.advance id call candidate ok).Invariant := by
  simp only [advance, hphase]
  split
  next stableId _ =>
    obtain ⟨hremove, hheld⟩ :=
      h.removeCachedIf call.owner fun conn => conn.stableId = stableId
    rw [← hheld] at hid
    split
    next => exact hremove.goto hid rfl
    next => exact hremove.goto hid rfl
  next => exact h

end Phases

variable {ep ep' : ConnEndpoint} {e : ConnEvent}

/-- The next operation of a call, by the place where the call is. -/
theorem invariant_advance {id : Nat} {call : ConnCall} {candidate : SocketAddr} {ok : Bool}
    (h : ep.Invariant) (hcall : ep.calls.get id = some call)
    (hsafe : ep.Safe (.advance id candidate ok)) :
    (ep.advance id call candidate ok).Invariant := by
  have hallowed : ep.Allowed call := hsafe call hcall
  have hid := held_eq hcall
  cases hphase : call.phase with
  | start => exact h.advance_start (by rw [hid, hphase]; rfl) hphase
  | register phase => exact h.advance_register hallowed (by rw [hid, hphase]; rfl) hphase
  | checkCache addr =>
      rw [hphase] at hid
      simp only [advance, hphase]
      split
      next => exact h.goto hid (held_connected call)
      next => exact h.goto hid rfl
  | connect addr =>
      rw [hphase] at hid
      simp only [advance, hphase]
      split
      next => exact Invariant.goto ⟨h.coherent, h.live⟩ hid rfl
      next => exact h.goto hid rfl
  | cache conn => exact h.advance_cache hallowed (by rw [hid, hphase]; rfl) hphase
  | startTasks conn => exact h.advance_startTasks (by rw [hid, hphase]; rfl) hphase
  | spawnTasks conn =>
      rw [hphase] at hid
      simp only [advance, hphase]
      exact Invariant.goto ⟨h.coherent, h.live⟩ hid (held_connected call)
  | opening =>
      rw [hphase] at hid
      simp only [advance, hphase]
      split
      next => exact h.goto hid rfl
      next => exact h.goto hid rfl
  | connectFailed => exact h.advance_connectFailed (by rw [hid, hphase]; rfl) hphase
  | openFailed => exact h.advance_openFailed (by rw [hid, hphase]; rfl) hphase
  | release releasing => exact h.advance_release hallowed (by rw [hid, hphase]; rfl) hphase
  | free addr releasing =>
      rw [hphase] at hid
      simp only [advance, hphase]
      exact h.free hid (held_released call releasing)
  | cleanup => exact h.advance_cleanup (by rw [hid, hphase]; rfl) hphase
  | done =>
      simp only [advance, hphase]
      exact h

/-- A new call holds nothing. -/
theorem invariant_call {id : Nat} {call : ConnCall} (hstep : ep.call id call = some ep')
    (h : ep.Invariant) (hheld : call.phase.held = none) : ep'.Invariant := by
  simp only [ConnEndpoint.call] at hstep
  split at hstep
  next hnone =>
    cases hstep
    have hid : ep.held id = none := by simp only [held, hnone, Option.bind_none]
    exact h.goto hid hheld
  next => cases hstep

theorem invariant_step (hsafe : ep.Safe e) (hstep : step ep e = some ep') (h : ep.Invariant) :
    ep'.Invariant := by
  cases e with
  | inbound id peerId => exact invariant_call hstep h rfl
  | accept id addr => exact invariant_call hstep ⟨h.coherent, h.live⟩ rfl
  | send id owner => exact invariant_call hstep h rfl
  | openBi id owner => exact invariant_call hstep h rfl
  | taskEnd id index =>
      simp only [step] at hstep
      split at hstep
      next => cases hstep
      next task _ =>
        split at hstep
        next =>
          split at hstep
          next =>
            cases hstep
            exact ⟨h.coherent, h.live⟩
          next => exact invariant_call hstep ⟨h.coherent, h.live⟩ rfl
        next => cases hstep
  | close stableId =>
      cases hstep
      refine h.shrink rfl rfl ?_ fun _ _ hc => hc
      intro conn hconn
      simp only [isClosed, decide_eq_true_eq] at hconn ⊢
      exact List.mem_cons_of_mem _ hconn
  | advance id candidate ok =>
      simp only [step] at hstep
      split at hstep
      next => cases hstep
      next call hcall =>
        cases hstep
        exact invariant_advance h hcall hsafe

theorem invariant_new : new.Invariant where
  coherent := .new fun _ => rfl
  live v conn hconn := by
    obtain ⟨p, k⟩ := v
    cases k <;> cases hconn

/-- Every live cached connection has its address: in `connections` the one of its peer, and in
`via_connections` the one of its peer and route. -/
def Mapped (ep : ConnEndpoint) : Prop :=
  (∀ p conn, ep.connections.get p = some conn → ep.isClosed conn = false →
    ep.socket.virtualByAddr.get conn.remoteAddr = some ⟨p, none⟩) ∧
  ∀ p k conn, ep.viaConnections.get (p, k) = some conn → ep.isClosed conn = false →
    ep.socket.virtualByAddr.get conn.remoteAddr = some ⟨p, some k⟩

theorem Invariant.mapped (h : ep.Invariant) : ep.Mapped := by
  constructor
  · intro p conn hconn halive
    exact h.coherent.owned _ _ (h.live ⟨p, none⟩ conn hconn halive)
  · intro p k conn hconn halive
    exact h.coherent.owned _ _ (h.live ⟨p, some k⟩ conn hconn halive)

/-- In every run in which calls use and release addresses only as `Safe` says, every live
cached connection has its address, and what quinn sends on it goes to its peer, over its
route if it has one. -/
theorem live_connections_mapped {es : List ConnEvent} {ep : ConnEndpoint}
    (hrun : Transition.run step new es = some ep) (hsafe : Transition.Along step Safe new es) :
    ep.Mapped ∧
    (∀ p conn, ep.connections.get p = some conn → ep.isClosed conn = false →
      ∀ c l contents, QuicPeerSocket.trySend c ep.socket l conn.remoteAddr contents =
        l.trySendQuicPayload p contents) ∧
    ∀ p k conn, ep.viaConnections.get (p, k) = some conn → ep.isClosed conn = false →
      ∀ c l contents, QuicPeerSocket.trySend c ep.socket l conn.remoteAddr contents =
        l.trySendQuicPayloadVia p k contents := by
  have hmapped : ep.Mapped :=
    (Transition.run_invariant_along (fun _ _ _ hs he => invariant_step hs he) hrun hsafe
      invariant_new).mapped
  refine ⟨hmapped, ?_, ?_⟩
  · intro p conn hconn halive c l contents
    simp only [QuicPeerSocket.trySend, hmapped.1 p conn hconn halive]
  · intro p k conn hconn halive c l contents
    simp only [QuicPeerSocket.trySend, hmapped.2 p k conn hconn halive]

/-- A call goes on so many times, with this address and this outcome. -/
def onward (id n : Nat) (ok : Bool) : List ConnEvent :=
  List.replicate n (.advance id (syntheticAddr 0 1024) ok)

/-- Two calls for `b` have the same address when the first one connects.  The handshake of
the second fails, and it does not release the address. -/
def sharedRun : List ConnEvent :=
  let b : VirtualPeer := ⟨⟨"b"⟩, none⟩
  [.openBi 0 b, .send 1 b] ++ onward 0 4 true ++ onward 1 4 true ++ onward 0 5 true ++
    onward 1 2 false ++ onward 0 1 true

theorem live_connections_mapped_shared :
    ∃ ep, Transition.run step new sharedRun = some ep ∧
      ep.connections.get ⟨"b"⟩ = some ⟨0, syntheticAddr 0 1024⟩ ∧
      ep.isClosed ⟨0, syntheticAddr 0 1024⟩ = false ∧ ep.Mapped := by
  obtain ⟨ep, hep, hconn, halive⟩ :
      ∃ ep, Transition.run step new sharedRun = some ep ∧
        ep.connections.get ⟨"b"⟩ = some ⟨0, syntheticAddr 0 1024⟩ ∧
        ep.isClosed ⟨0, syntheticAddr 0 1024⟩ = false := by
    decide +kernel
  have hsafe : Transition.Along step Safe new sharedRun := by decide +kernel
  exact ⟨ep, hep, hconn, halive, (live_connections_mapped hep hsafe).1⟩

/-- A connection to `b` over a route is established and cached.  The peer stops the stream
before its header is written, and the attempt fails. -/
def stoppedRun : List ConnEvent :=
  [.openBi 0 ⟨⟨"b"⟩, some QuicEndpoint.viaKey⟩] ++ onward 0 8 true ++ onward 0 4 false

/-- Two sends to `b` share an address.  The handshake of the second has succeeded, but its
connection is not cached yet when the handshake of the first fails, which releases the
address. -/
def failedRun : List ConnEvent :=
  let b : VirtualPeer := ⟨⟨"b"⟩, none⟩
  [.send 0 b, .send 1 b] ++ onward 0 5 true ++ onward 1 5 true ++ onward 0 4 false ++
    onward 1 1 true

/-- A failed attempt releases the address of a connection that is cached and alive: over a
route the attempt to open a stream on it, and on the default connection the handshake of
another call. -/
theorem stopped_stream_unmaps_connection :
    (∃ ep, Transition.run step new stoppedRun = some ep ∧
      ep.viaConnections.get (⟨"b"⟩, QuicEndpoint.viaKey) = some ⟨0, syntheticAddr 0 1024⟩ ∧
      ep.isClosed ⟨0, syntheticAddr 0 1024⟩ = false ∧
      ep.socket.virtualByAddr.get (syntheticAddr 0 1024) = none ∧ ¬ ep.Mapped) ∧
    ∃ ep, Transition.run step new failedRun = some ep ∧
      ep.connections.get ⟨"b"⟩ = some ⟨0, syntheticAddr 0 1024⟩ ∧
      ep.isClosed ⟨0, syntheticAddr 0 1024⟩ = false ∧
      ep.socket.virtualByAddr.get (syntheticAddr 0 1024) = none ∧ ¬ ep.Mapped := by
  constructor
  · obtain ⟨ep, hep, hconn, halive, hnone⟩ :
        ∃ ep, Transition.run step new stoppedRun = some ep ∧
          ep.viaConnections.get (⟨"b"⟩, QuicEndpoint.viaKey) = some ⟨0, syntheticAddr 0 1024⟩ ∧
          ep.isClosed ⟨0, syntheticAddr 0 1024⟩ = false ∧
          ep.socket.virtualByAddr.get (syntheticAddr 0 1024) = none := by
      decide +kernel
    refine ⟨ep, hep, hconn, halive, hnone, ?_⟩
    intro hmapped
    have hget := hmapped.2 ⟨"b"⟩ QuicEndpoint.viaKey _ hconn halive
    rw [hnone] at hget
    cases hget
  · obtain ⟨ep, hep, hconn, halive, hnone⟩ :
        ∃ ep, Transition.run step new failedRun = some ep ∧
          ep.connections.get ⟨"b"⟩ = some ⟨0, syntheticAddr 0 1024⟩ ∧
          ep.isClosed ⟨0, syntheticAddr 0 1024⟩ = false ∧
          ep.socket.virtualByAddr.get (syntheticAddr 0 1024) = none := by
      decide +kernel
    refine ⟨ep, hep, hconn, halive, hnone, ?_⟩
    intro hmapped
    have hget := hmapped.1 ⟨"b"⟩ _ hconn halive
    rw [hnone] at hget
    cases hget

end ConnEndpoint

end RustP2p
