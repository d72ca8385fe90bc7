import RustP2p.Core.Addr
import RustP2p.Core.Std
import RustP2p.Lib.Demux
import RustP2p.Lib.Transition

/-!
# Demultiplexing of datagrams

`UdpDispatcher` of `tunnel.rs` with the tunnels it makes: the map of registrations,
the bounded queue of every tunnel, the accept queue and the read halves.

One step is what the code does under one lock or in one operation of a channel.

* A pass of the loop of `dispatch` holds the entry of its key, so it is one step, up
  to the insertion of a new registration.  The new tunnel goes to the accept queue
  in a step of its own, and when it is refused, it is dropped in two more.
* Dropping a read half runs `unregister` first and drops the receiver after it.
* `clear` and `unregister_local` lock one shard of the map after the other.  Which
  keys are in a shard depends on their hashes, so a step is for any set of keys.

A datagram carries the number of the call that brought it, so that equal datagrams
can be told apart.
-/

namespace RustP2p

/-- `TUNNEL_CHANNEL_CAPACITY`. -/
def TUNNEL_CHANNEL_CAPACITY : Nat := 128

/-! ## The state -/

/-- The number of a call of `dispatch`, and the datagram it brought. -/
abbrev Datagram := Nat × List UInt8

/-- Where the read half of a tunnel is. -/
inductive ReadHalf where
  /-- With the call of `dispatch` that made the tunnel. -/
  | fresh
  /-- In the accept queue. -/
  | queued
  /-- With the application. -/
  | held
  /-- Its `drop` has run, and the receiver is still there. -/
  | dropping
  | dropped
  /-- The same for a tunnel that the accept queue refused. -/
  | refusing
  | refused
deriving DecidableEq, Repr

/-- Nobody has begun to drop it. -/
def ReadHalf.isAlive : ReadHalf → Bool
  | fresh => true
  | queued => true
  | held => true
  | _ => false

/-- The receiver is gone. -/
def ReadHalf.isClosed : ReadHalf → Bool
  | dropped => true
  | refused => true
  | _ => false

theorem ReadHalf.not_isClosed_of_isAlive {half : ReadHalf} (h : half.isAlive = true) :
    half.isClosed = false := by
  cases half <;> first | rfl | cases h

/-- A UDP tunnel, without its write half. -/
structure UdpTunnel where
  routeKey : RouteKey
  half : ReadHalf
  /-- The queue of `data_rx`.  When the receiver is dropped, what is in it is lost. -/
  queue : List Datagram
  /-- What the reader has received. -/
  received : List Datagram
deriving DecidableEq, Repr

/-- `mpsc::error::TrySendError`. -/
inductive TrySendError where
  | full
  | closed
deriving DecidableEq, Repr

namespace UdpTunnel

/-- Everything that was ever queued to the tunnel. -/
def entries (t : UdpTunnel) : List Datagram := t.received ++ t.queue

/-- The datagram enters the queue. -/
def push (t : UdpTunnel) (datagram : Datagram) : UdpTunnel :=
  { t with queue := t.queue ++ [datagram] }

/-- `data_tx.try_send`. -/
def trySend (t : UdpTunnel) (datagram : Datagram) : Except TrySendError UdpTunnel :=
  if t.half.isClosed then .error .closed
  else if t.queue.length < TUNNEL_CHANNEL_CAPACITY then .ok (t.push datagram)
  else .error .full

/-- The tunnel of a fresh channel, with its first datagram. -/
def udp (routeKey : RouteKey) (datagram : Datagram) : UdpTunnel :=
  ⟨routeKey, .fresh, [datagram], []⟩

/-- The read half is somewhere else now. -/
def move (half : ReadHalf) (t : UdpTunnel) : UdpTunnel := { t with half := half }

end UdpTunnel

/-- What became of the datagram of a call. -/
inductive Fate where
  /-- It was queued to the registered tunnel. -/
  | queued (id : Nat)
  /-- The queue of the registered tunnel was full. -/
  | full (id : Nat)
  /-- It opened a tunnel, which is in the accept queue. -/
  | opened (id : Nat)
  /-- It opened a tunnel, which the accept queue refused. -/
  | refused (id : Nat)
deriving DecidableEq, Repr

/-- Where a call of `dispatch` is. -/
inductive DispatchPhase where
  /-- At the top of the loop. -/
  | looking
  /-- Before `accept_tx.try_send`. -/
  | offering (id : Nat)
  /-- Before the tunnel is dropped.  `result` is what the call will return. -/
  | refused (id : Nat) (result : Bool)
  /-- Between the two halves of the drop. -/
  | closing (id : Nat) (result : Bool)
  | done (fate : Fate) (result : Bool)
deriving DecidableEq, Repr

namespace DispatchPhase

/-- What the books say of the datagram. -/
def status : DispatchPhase → Demux.Status
  | looking => .waiting
  | offering id => .put id true
  | refused id _ => .put id true
  | closing id _ => .put id true
  | done (.queued id) _ => .put id false
  | done (.full _) _ => .rejected
  | done (.opened id) _ => .put id true
  | done (.refused id) _ => .put id true

/-- The tunnel of the call that the accept queue refused. -/
def refusal : DispatchPhase → Option Nat
  | refused id _ => some id
  | closing id _ => some id
  | done (.refused id) _ => some id
  | _ => none

/-- The call has returned. -/
def isDone : DispatchPhase → Bool
  | done _ _ => true
  | _ => false

end DispatchPhase

/-- A call of `dispatch`. -/
structure DispatchCall where
  routeKey : RouteKey
  data : List UInt8
  phase : DispatchPhase
deriving DecidableEq, Repr

/-- `UdpDispatcher` with the tunnels, the accept queue and the calls. -/
structure UdpDispatcher where
  /-- The id of a registration, whose `data_tx` is the sender of the tunnel's queue. -/
  routes : DashMap RouteKey Nat
  /-- A counter of the size of a word in the code.  Here the ids do not wrap. -/
  nextId : Nat
  tunnels : DashMap Nat UdpTunnel
  /-- The tunnels in the accept queue, `none` for one of TCP. -/
  acceptQueue : List (Option Nat)
  acceptCapacity : Nat
  acceptClosed : Bool
  calls : List DispatchCall

/-- What can happen. -/
inductive UdpEvent where
  /-- A call of `dispatch` begins. -/
  | dispatch (routeKey : RouteKey) (data : List UInt8)
  /-- The next operation of a call. -/
  | call (index : Nat)
  /-- A TCP tunnel enters the accept queue. -/
  | acceptTcp
  /-- The receiver of the accept queue takes a tunnel.  A receiver that is being
  dropped takes them too, to drop them. -/
  | accept
  /-- The receiver of the accept queue is being dropped. -/
  | closeAccept
  /-- `TunnelReadHalf::recv`. -/
  | receive (id : Nat)
  /-- `TunnelReadHalf::drop` runs. -/
  | drop (id : Nat)
  /-- The receiver of a dropped read half is dropped. -/
  | finishDrop (id : Nat)
  /-- `clear`, for one shard. -/
  | clear (shard : RouteKey → Bool)
  /-- `unregister_local`, for one shard. -/
  | unregisterLocal (localAddr : SocketAddr) (shard : RouteKey → Bool)

/-- It concerns the accept queue. -/
def UdpEvent.isAccepting : UdpEvent → Bool
  | acceptTcp => true
  | accept => true
  | closeAccept => true
  | _ => false

/-- It is `clear` or `unregister_local`. -/
def UdpEvent.isForgetting : UdpEvent → Bool
  | clear _ => true
  | unregisterLocal _ _ => true
  | _ => false

namespace UdpDispatcher

/-- `UdpDispatcher::new`, with an accept queue. -/
def new (acceptCapacity : Nat) : UdpDispatcher := ⟨∅, 1, ∅, [], acceptCapacity, false, []⟩

/-! ## The steps -/

/-- The call goes on. -/
def goto (d : UdpDispatcher) (index : Nat) (call : DispatchCall) (phase : DispatchPhase) :
    UdpDispatcher := { d with calls := d.calls.set index { call with phase := phase } }

/-- A change of one tunnel. -/
def update (d : UdpDispatcher) (id : Nat) (t : UdpTunnel) : UdpDispatcher :=
  { d with tunnels := d.tunnels.insert id t }

/-- `unregister`. -/
def unregister (d : UdpDispatcher) (routeKey : RouteKey) (id : Nat) : UdpDispatcher :=
  { d with routes := d.routes.removeIf routeKey (· = id) }

/-- The vacant entry: a fresh channel takes the datagram and is registered. -/
def register (d : UdpDispatcher) (index : Nat) (call : DispatchCall) : UdpDispatcher :=
  let id := d.nextId
  ({ d with
    nextId := id + 1
    routes := d.routes.insert call.routeKey id }.update id
      (.udp call.routeKey (index, call.data))).goto index call (.offering id)

/-- One pass of the loop of `dispatch`. -/
def lookup (d : UdpDispatcher) (index : Nat) (call : DispatchCall) : Option UdpDispatcher :=
  match d.routes.get call.routeKey with
  | some id =>
      match d.tunnels.get id with
      | some t =>
          match t.trySend (index, call.data) with
          | .ok t => some ((d.update id t).goto index call (.done (.queued id) true))
          | .error .full => some (d.goto index call (.done (.full id) true))
          -- The loop goes on without the registration.
          | .error .closed => some { d with routes := d.routes.remove call.routeKey }
      | none => none
  | none => some (d.register index call)

/-- `accept_tx.try_send`. -/
def offer (d : UdpDispatcher) (index : Nat) (call : DispatchCall) (id : Nat) (t : UdpTunnel) :
    UdpDispatcher :=
  if d.acceptClosed then d.goto index call (.refused id false)
  else if d.acceptQueue.length < d.acceptCapacity then
    ({ d with acceptQueue := d.acceptQueue ++ [some id] }.update id (t.move .queued)).goto index
      call (.done (.opened id) true)
  else d.goto index call (.refused id true)

/-- The next operation of a call. -/
def stepCall (d : UdpDispatcher) (index : Nat) (call : DispatchCall) : Option UdpDispatcher :=
  match call.phase with
  | .looking => d.lookup index call
  | .offering id => (d.tunnels.get id).map (d.offer index call id)
  | .refused id result => (d.tunnels.get id).map fun t =>
      ((d.unregister t.routeKey id).update id (t.move .refusing)).goto index call
        (.closing id result)
  | .closing id result => (d.tunnels.get id).map fun t =>
      (d.update id (t.move .refused)).goto index call (.done (.refused id) result)
  | .done _ _ => none

/-- The state after an event, if the event can happen. -/
def step (d : UdpDispatcher) : UdpEvent → Option UdpDispatcher
  | .dispatch routeKey data => some { d with calls := d.calls ++ [⟨routeKey, data, .looking⟩] }
  | .call index =>
      match d.calls[index]? with
      | some call => d.stepCall index call
      | none => none
  | .acceptTcp =>
      if d.acceptClosed = false ∧ d.acceptQueue.length < d.acceptCapacity then
        some { d with acceptQueue := d.acceptQueue ++ [none] }
      else none
  | .accept =>
      match d.acceptQueue with
      | [] => none
      | none :: rest => some { d with acceptQueue := rest }
      | some id :: rest => (d.tunnels.get id).map fun t =>
          { d with acceptQueue := rest }.update id (t.move .held)
  | .closeAccept => some { d with acceptClosed := true }
  | .receive id =>
      match d.tunnels.get id with
      | some t =>
          match t.half, t.queue with
          | .held, datagram :: rest =>
              some (d.update id { t with queue := rest, received := t.received ++ [datagram] })
          | _, _ => none
      | none => none
  | .drop id =>
      match d.tunnels.get id with
      | some t =>
          if t.half = .held then
            some ((d.unregister t.routeKey id).update id (t.move .dropping))
          else none
      | none => none
  | .finishDrop id =>
      match d.tunnels.get id with
      | some t => if t.half = .dropping then some (d.update id (t.move .dropped)) else none
      | none => none
  | .clear shard => some { d with routes := d.routes.retain fun k _ => !shard k }
  | .unregisterLocal localAddr shard => some { d with
      routes := d.routes.retain fun k _ => !(decide (k.localAddr = localAddr) && shard k) }

/-! ## The moves -/

/-- The moves of the dispatcher, with what each one needs. -/
inductive Move (d : UdpDispatcher) : UdpEvent → UdpDispatcher → Prop where
  | arrive {routeKey : RouteKey} {data : List UInt8} :
      Move d (.dispatch routeKey data)
        { d with calls := d.calls ++ [⟨routeKey, data, .looking⟩] }
  | push {index id : Nat} {call : DispatchCall} {t : UdpTunnel}
      (running : d.calls[index]? = some call) (phase : call.phase = .looking)
      (route : d.routes.get call.routeKey = some id) (tunnel : d.tunnels.get id = some t)
      (room : t.queue.length < TUNNEL_CHANNEL_CAPACITY) :
      Move d (.call index) ((d.update id (t.push (index, call.data))).goto index call
        (.done (.queued id) true))
  | overflow {index id : Nat} {call : DispatchCall} {t : UdpTunnel}
      (running : d.calls[index]? = some call) (phase : call.phase = .looking)
      (route : d.routes.get call.routeKey = some id) (tunnel : d.tunnels.get id = some t)
      (full : TUNNEL_CHANNEL_CAPACITY ≤ t.queue.length) :
      Move d (.call index) (d.goto index call (.done (.full id) true))
  | stale {index id : Nat} {call : DispatchCall} {t : UdpTunnel}
      (running : d.calls[index]? = some call) (phase : call.phase = .looking)
      (route : d.routes.get call.routeKey = some id) (tunnel : d.tunnels.get id = some t)
      (closed : t.half.isClosed = true) :
      Move d (.call index) { d with routes := d.routes.remove call.routeKey }
  | register {index : Nat} {call : DispatchCall} (running : d.calls[index]? = some call)
      (phase : call.phase = .looking) (vacant : d.routes.get call.routeKey = none) :
      Move d (.call index) (d.register index call)
  | offered {index id : Nat} {call : DispatchCall} {t : UdpTunnel}
      (running : d.calls[index]? = some call) (phase : call.phase = .offering id)
      (tunnel : d.tunnels.get id = some t) :
      Move d (.call index) (({ d with acceptQueue := d.acceptQueue ++ [some id] }.update id
        (t.move .queued)).goto index call (.done (.opened id) true))
  | refused {index id : Nat} {call : DispatchCall} {result : Bool}
      (running : d.calls[index]? = some call) (phase : call.phase = .offering id)
      (refusal : d.acceptClosed = true ∨ d.acceptCapacity ≤ d.acceptQueue.length) :
      Move d (.call index) (d.goto index call (.refused id result))
  | unregister {index id : Nat} {call : DispatchCall} {result : Bool} {t : UdpTunnel}
      (running : d.calls[index]? = some call) (phase : call.phase = .refused id result)
      (tunnel : d.tunnels.get id = some t) :
      Move d (.call index) (((d.unregister t.routeKey id).update id (t.move .refusing)).goto index
        call (.closing id result))
  | close {index id : Nat} {call : DispatchCall} {result : Bool} {t : UdpTunnel}
      (running : d.calls[index]? = some call) (phase : call.phase = .closing id result)
      (tunnel : d.tunnels.get id = some t) :
      Move d (.call index) ((d.update id (t.move .refused)).goto index call
        (.done (.refused id) result))
  /-- The accept queue changes, and no tunnel of ours. -/
  | accepting {e : UdpEvent} {queue : List (Option Nat)} {closed : Bool}
      (event : e.isAccepting = true) :
      Move d e { d with acceptQueue := queue, acceptClosed := closed }
  | accepted {id : Nat} {t : UdpTunnel} {rest : List (Option Nat)}
      (tunnel : d.tunnels.get id = some t) :
      Move d .accept ({ d with acceptQueue := rest }.update id (t.move .held))
  | received {id : Nat} {t : UdpTunnel} {datagram : Datagram} {rest : List Datagram}
      (tunnel : d.tunnels.get id = some t) (queue : t.queue = datagram :: rest) :
      Move d (.receive id)
        (d.update id { t with queue := rest, received := t.received ++ [datagram] })
  | drop {id : Nat} {t : UdpTunnel} (tunnel : d.tunnels.get id = some t)
      (held : t.half = .held) :
      Move d (.drop id) ((d.unregister t.routeKey id).update id (t.move .dropping))
  | finishDrop {id : Nat} {t : UdpTunnel} (tunnel : d.tunnels.get id = some t)
      (dropping : t.half = .dropping) : Move d (.finishDrop id) (d.update id (t.move .dropped))
  | forget {e : UdpEvent} {keep : RouteKey → Bool} (event : e.isForgetting = true) :
      Move d e { d with routes := d.routes.retain fun k _ => keep k }

variable {d d' : UdpDispatcher} {e : UdpEvent}

theorem Move.of_lookup {index : Nat} {call : DispatchCall} (running : d.calls[index]? = some call)
    (phase : call.phase = .looking) (h : d.lookup index call = some d') :
    Move d (.call index) d' := by
  simp only [lookup] at h
  split at h
  next id route =>
    split at h
    next t tunnel =>
      simp only [UdpTunnel.trySend] at h
      by_cases closed : t.half.isClosed = true
      · rw [if_pos closed] at h
        cases h
        exact .stale running phase route tunnel closed
      · rw [if_neg closed] at h
        by_cases room : t.queue.length < TUNNEL_CHANNEL_CAPACITY
        · rw [if_pos room] at h
          cases h
          exact .push running phase route tunnel room
        · rw [if_neg room] at h
          cases h
          exact .overflow running phase route tunnel (Nat.le_of_not_lt room)
    next => cases h
  next vacant =>
    cases h
    exact .register running phase vacant

theorem Move.of_stepCall {index : Nat} {call : DispatchCall}
    (running : d.calls[index]? = some call) (h : d.stepCall index call = some d') :
    Move d (.call index) d' := by
  simp only [stepCall] at h
  split at h
  next phase => exact .of_lookup running phase h
  next id phase =>
    obtain ⟨t, tunnel, rfl⟩ := Option.map_eq_some_iff.mp h
    simp only [offer]
    split
    next closed => exact .refused running phase (Or.inl closed)
    next =>
      split
      next => exact .offered running phase tunnel
      next full => exact .refused running phase (Or.inr (Nat.le_of_not_lt full))
  next id result phase =>
    obtain ⟨t, tunnel, rfl⟩ := Option.map_eq_some_iff.mp h
    exact .unregister running phase tunnel
  next id result phase =>
    obtain ⟨t, tunnel, rfl⟩ := Option.map_eq_some_iff.mp h
    exact .close running phase tunnel
  next => cases h

/-- The dispatcher takes no other steps. -/
theorem Move.of_step (h : step d e = some d') : Move d e d' := by
  cases e with
  | dispatch routeKey data =>
      cases h
      exact .arrive
  | call index =>
      simp only [step] at h
      split at h
      next running => exact .of_stepCall running h
      next => cases h
  | acceptTcp =>
      simp only [step] at h
      split at h
      next =>
        cases h
        exact .accepting rfl
      next => cases h
  | accept =>
      simp only [step] at h
      split at h
      next => cases h
      next =>
        cases h
        exact .accepting rfl
      next =>
        obtain ⟨t, tunnel, rfl⟩ := Option.map_eq_some_iff.mp h
        exact .accepted tunnel
  | closeAccept =>
      cases h
      exact .accepting rfl
  | receive id =>
      simp only [step] at h
      split at h
      next tunnel =>
        split at h
        next queue =>
          cases h
          exact .received tunnel queue
        next => cases h
      next => cases h
  | drop id =>
      simp only [step] at h
      split at h
      next tunnel =>
        split at h
        next held =>
          cases h
          exact .drop tunnel held
        next => cases h
      next => cases h
  | finishDrop id =>
      simp only [step] at h
      split at h
      next tunnel =>
        split at h
        next dropping =>
          cases h
          exact .finishDrop tunnel dropping
        next => cases h
      next => cases h
  | clear shard =>
      cases h
      exact .forget rfl
  | unregisterLocal addr shard =>
      cases h
      exact .forget rfl

end UdpDispatcher

end RustP2p
