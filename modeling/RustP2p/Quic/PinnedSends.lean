import RustP2p.Core.Addr
import RustP2p.Lib.Transition

/-!
# Sending over a route

`CoreTransportLayer::send_to_route`, with the tunnel actors and the sockets it
uses.  The other modules take its answer as a part of the environment
(`Env.sendToRoute`).

A route key has a local address, and the packets of a connection that is bound to
a route have to leave from there.  A call finds the actor of the key and puts the
data in its channel.  This waits when the channel is full, so the actor can end
in between, and a call has several steps (`SendCall`).  An actor that is in the
map under a key has a tunnel with that key (`Keyed`).

When there is no actor, or its channel is closed, the data of a UDP route goes to
`Puncher::send_to`.  It sends from the main socket of the address family.  The
local address of the key is not looked at, so the packet of a route on an
assistant socket leaves from another port (`pinned_iff`).
-/

namespace RustP2p

/-! ## Sockets -/

/-- A bound UDP socket. -/
structure UdpSocket where
  localAddr : SocketAddr
deriving DecidableEq, Repr

/-- Where the data of a call went. -/
inductive Handed where
  /-- Into the channel of the actor whose tunnel has this key. -/
  | tunnel (routeKey : RouteKey) (data : List UInt8)
  /-- Out of the socket with the local address. -/
  | socket (localAddr peerAddr : SocketAddr) (data : List UInt8)
deriving DecidableEq, Repr

/-- `UdpSocket::try_send_to` with the error text of the callers.  The answer is that of the
operating system. -/
def UdpSocket.trySendTo (socket : UdpSocket) (answer : IoResult Unit) (buf : List UInt8)
    (addr : SocketAddr) : IoResult Unit × Option Handed :=
  match answer with
  | .ok () => (.ok (), some (.socket socket.localAddr addr buf))
  | .error e => (.error ⟨.other, "send failed: " ++ e.message⟩, none)

/-- `SocketPool`, as far as sending goes. -/
structure SocketPool where
  mainUdpV4 : UdpSocket
  mainUdpV6 : Option UdpSocket
  assistantUdp : List UdpSocket
deriving DecidableEq, Repr

namespace SocketPool

/-- `SocketPool::send_to`. -/
def sendTo (pool : SocketPool) (answer : IoResult Unit) (buf : List UInt8) :
    SocketAddr → IoResult Unit × Option Handed
  | .v4 ip port => pool.mainUdpV4.trySendTo answer buf (.v4 ip port)
  | .v6 ip port flowinfo scopeId =>
      match pool.mainUdpV6 with
      | none => (.error ⟨.other, "IPv6 main socket not available"⟩, none)
      | some v6 => v6.trySendTo answer buf (.v6 ip port flowinfo scopeId)

/-- The main socket for the family of the address. -/
def mainFor (pool : SocketPool) : SocketAddr → Option UdpSocket
  | .v4 .. => some pool.mainUdpV4
  | .v6 .. => pool.mainUdpV6

/-- What was sent left from the main socket of the family. -/
theorem sendTo_ok_iff {pool : SocketPool} {answer : IoResult Unit} {buf : List UInt8}
    {addr : SocketAddr} {handed : Option Handed} :
    pool.sendTo answer buf addr = (.ok (), handed) ↔
      answer = .ok () ∧ ∃ socket, pool.mainFor addr = some socket ∧
        handed = some (.socket socket.localAddr addr buf) := by
  have htry (socket : UdpSocket) : socket.trySendTo answer buf addr = (.ok (), handed) ↔
      answer = .ok () ∧ handed = some (.socket socket.localAddr addr buf) := by
    cases answer with
    | ok _ => simp [UdpSocket.trySendTo, eq_comm]
    | error e => simp [UdpSocket.trySendTo]
  cases addr with
  | v4 ip port => simp [sendTo, mainFor, htry]
  | v6 ip port flowinfo scopeId =>
      cases hmain : pool.mainUdpV6 with
      | none => simp [sendTo, mainFor, hmain]
      | some v6 => simp [sendTo, mainFor, hmain, htry]

end SocketPool

/-! ## Actors and calls -/

/-- `TunnelActor`.  The id stands for its channel too. -/
structure TunnelActor where
  id : Nat
deriving DecidableEq, Repr

/-- How far the task of an actor is. -/
inductive ActorStage where
  | running
  /-- It left the loop and the map. -/
  | removed
  /-- It ended, and its receiver with it. -/
  | dropped
deriving DecidableEq, Repr

/-- The task of `start_tunnel_actor`. -/
structure ActorTask where
  routeKey : RouteKey
  stage : ActorStage
deriving DecidableEq, Repr

/-- Where a call of `send_to_route` stands. -/
inductive SendCall where
  | started (routeKey : RouteKey) (data : List UInt8)
  /-- In `outbound_tx.send`. -/
  | sending (routeKey : RouteKey) (data : List UInt8) (id : Nat)
  /-- About to call `Puncher::send_to`. -/
  | falling (routeKey : RouteKey) (data : List UInt8)
  | returned (routeKey : RouteKey) (data : List UInt8) (result : IoResult Unit)
      (handed : Option Handed)

/-- A call that returned `Ok` has handed its data to a tunnel with its key, or it left from
the local address of the key to its peer. -/
def SendCall.Pinned : SendCall → Prop
  | returned k data (.ok ()) handed =>
      handed = some (.tunnel k data) ∨ handed = some (.socket k.localAddr k.peerAddr data)
  | _ => True

/-- `CoreTransportLayer`, as far as sending over a route goes. -/
structure CoreTransportLayer where
  pool : SocketPool
  tunnels : DashMap RouteKey TunnelActor
  /-- A counter of 64 bits in the code.  Here the ids do not wrap. -/
  nextTunnelId : Nat
  /-- All actors that were started, by their id. -/
  actors : DashMap Nat ActorTask
  calls : List SendCall

/-- A step of a call. -/
inductive SendStep where
  | lookup
  /-- The send into the channel comes to its end. -/
  | send
  /-- The fallback, with the answer of the socket. -/
  | fallback (answer : IoResult Unit)

/-- What can happen in the layer. -/
inductive SendEvent where
  /-- A tunnel was accepted. -/
  | accept (routeKey : RouteKey)
  /-- An actor leaves its loop: idle, closed, or failed to send. -/
  | finish (id : Nat)
  | drop (id : Nat)
  | addAssistantUdp (socket : UdpSocket)
  | cleanAssistantUdp
  | call (routeKey : RouteKey) (data : List UInt8)
  | advance (index : Nat) (step : SendStep)

/-- The event is a step of no call. -/
def SendEvent.Outside (e : SendEvent) : Prop := ∀ index step, e ≠ .advance index step

namespace CoreTransportLayer

/-- The layer before the first tunnel. -/
def new (pool : SocketPool) : CoreTransportLayer := ⟨pool, ∅, 1, ∅, []⟩

/-- `start_tunnel_actor`, up to the task. -/
def startTunnelActor (t : CoreTransportLayer) (routeKey : RouteKey) : CoreTransportLayer :=
  { t with
    tunnels := t.tunnels.insert routeKey ⟨t.nextTunnelId⟩
    nextTunnelId := t.nextTunnelId + 1
    actors := t.actors.insert t.nextTunnelId ⟨routeKey, .running⟩ }

/-- `send_to_route` when no actor takes the data. -/
def noTunnel (routeKey : RouteKey) (data : List UInt8) : SendCall :=
  if routeKey.protocol.isTcp then
    .returned routeKey data (.error ⟨.notFound, "TCP tunnel is no longer active"⟩) none
  else .falling routeKey data

/-- A step of a call of `send_to_route`, with the map after it.  The send into a channel
fails when the receiver is gone. -/
def stepCall (t : CoreTransportLayer) :
    SendCall → SendStep → Option (SendCall × DashMap RouteKey TunnelActor)
  | .started routeKey data, .lookup =>
      match t.tunnels.get routeKey with
      | some actor => some (.sending routeKey data actor.id, t.tunnels)
      | none => some (noTunnel routeKey data, t.tunnels)
  | .sending routeKey data id, .send =>
      match t.actors.get id with
      | none => none
      | some actor =>
          if actor.stage = .dropped then
            some (noTunnel routeKey data, t.tunnels.removeIf routeKey fun a => a.id = id)
          else
            some (.returned routeKey data (.ok ()) (some (.tunnel actor.routeKey data)), t.tunnels)
  | .falling routeKey data, .fallback answer =>
      let (result, handed) := t.pool.sendTo answer data routeKey.peerAddr
      some (.returned routeKey data result handed, t.tunnels)
  | _, _ => none

/-- The layer after an event, if it can happen. -/
def step (t : CoreTransportLayer) : SendEvent → Option CoreTransportLayer
  | .accept routeKey => some (t.startTunnelActor routeKey)
  | .finish id =>
      match t.actors.get id with
      | some ⟨routeKey, .running⟩ =>
          some { t with
            tunnels := t.tunnels.removeIf routeKey fun a => a.id = id
            actors := t.actors.insert id ⟨routeKey, .removed⟩ }
      | _ => none
  | .drop id =>
      match t.actors.get id with
      | some ⟨routeKey, .removed⟩ =>
          some { t with actors := t.actors.insert id ⟨routeKey, .dropped⟩ }
      | _ => none
  | .addAssistantUdp socket =>
      some { t with pool := { t.pool with assistantUdp := t.pool.assistantUdp ++ [socket] } }
  | .cleanAssistantUdp => some { t with pool := { t.pool with assistantUdp := [] } }
  | .call routeKey data => some { t with calls := t.calls ++ [.started routeKey data] }
  | .advance index step =>
      match t.calls[index]? with
      | none => none
      | some call => (t.stepCall call step).map fun (call, tunnels) =>
          { t with calls := t.calls.set index call, tunnels := tunnels }

/-! ## Actors under their keys -/

/-- The actor with the id has a tunnel with the key. -/
def ActorOf (t : CoreTransportLayer) (id : Nat) (routeKey : RouteKey) : Prop :=
  ∃ stage, t.actors.get id = some ⟨routeKey, stage⟩

/-- The actors that the map and the calls have under a key are actors of this key. -/
structure Keyed (t : CoreTransportLayer) : Prop where
  fresh : ∀ {id k}, t.ActorOf id k → id < t.nextTunnelId
  tunnels : ∀ {k actor}, t.tunnels.get k = some actor → t.ActorOf actor.id k
  sending : ∀ {k data id}, .sending k data id ∈ t.calls → t.ActorOf id k

variable {t t' : CoreTransportLayer} {e : SendEvent}

theorem keyed_new (pool : SocketPool) : (new pool).Keyed where
  fresh h := by
    obtain ⟨stage, h⟩ := h
    cases h
  tunnels h := by cases h
  sending h := by cases h

/-- The next stage of an actor does not change its key. -/
theorem actorOf_insert {id : Nat} {k : RouteKey} (h : t.ActorOf id k) (stage : ActorStage)
    {id' : Nat} {k' : RouteKey} :
    ({ t with actors := t.actors.insert id ⟨k, stage⟩ } : CoreTransportLayer).ActorOf id' k' ↔
      t.ActorOf id' k' := by
  obtain ⟨stage', hget⟩ := h
  simp only [ActorOf, DashMap.get_insert]
  split
  next heq =>
    subst heq
    rw [hget]
    simp
  next => exact Iff.rfl

theorem Keyed.startTunnelActor (h : t.Keyed) (k : RouteKey) : (t.startTunnelActor k).Keyed := by
  have hkept {id : Nat} {k' : RouteKey} (hactor : t.ActorOf id k') :
      (t.startTunnelActor k).ActorOf id k' := by
    have hne : id ≠ t.nextTunnelId := Nat.ne_of_lt (h.fresh hactor)
    obtain ⟨stage, hget⟩ := hactor
    refine ⟨stage, ?_⟩
    simp only [CoreTransportLayer.startTunnelActor, DashMap.get_insert, if_neg hne, hget]
  refine ⟨?_, ?_, ?_⟩
  · rintro id k' ⟨stage, hget⟩
    simp only [CoreTransportLayer.startTunnelActor, DashMap.get_insert] at hget ⊢
    split at hget
    next heq => omega
    next => exact Nat.lt_succ_of_lt (h.fresh ⟨stage, hget⟩)
  · intro k' actor hget
    simp only [CoreTransportLayer.startTunnelActor, DashMap.get_insert] at hget
    split at hget
    next heq =>
      cases hget
      subst heq
      exact ⟨.running, by simp [CoreTransportLayer.startTunnelActor]⟩
    next => exact hkept (h.tunnels hget)
  · intro k' data id hmem
    exact hkept (h.sending hmem)

/-- The same actors, no new entry in the map, and no new send into a channel. -/
theorem Keyed.of_same (h : t.Keyed) (hactors : ∀ {id k}, t'.ActorOf id k ↔ t.ActorOf id k)
    (hnext : t'.nextTunnelId = t.nextTunnelId)
    (htunnels : ∀ {k actor}, t'.tunnels.get k = some actor → t.tunnels.get k = some actor)
    (hcalls : ∀ {k data id}, .sending k data id ∈ t'.calls → t.ActorOf id k) : t'.Keyed where
  fresh hactor := by
    rw [hnext]
    exact h.fresh (hactors.mp hactor)
  tunnels hget := hactors.mpr (h.tunnels (htunnels hget))
  sending hmem := hactors.mpr (hcalls hmem)

/-- An entry of the map after `remove_if` was there before. -/
theorem get_of_removeIf {m : DashMap RouteKey TunnelActor} {k k' : RouteKey}
    {f : TunnelActor → Bool} {actor : TunnelActor} (h : (m.removeIf k f).get k' = some actor) :
    m.get k' = some actor := by
  rw [DashMap.get_removeIf] at h
  split at h
  next => cases h
  next => exact h

/-- The moves of a call. -/
inductive CallMove (t : CoreTransportLayer) :
    SendCall → SendStep → SendCall → DashMap RouteKey TunnelActor → Prop where
  | found {k : RouteKey} {data : List UInt8} {actor : TunnelActor}
      (listed : t.tunnels.get k = some actor) :
      CallMove t (.started k data) .lookup (.sending k data actor.id) t.tunnels
  | missing {k : RouteKey} {data : List UInt8} :
      CallMove t (.started k data) .lookup (noTunnel k data) t.tunnels
  | taken {k : RouteKey} {data : List UInt8} {id : Nat} {actor : ActorTask}
      (task : t.actors.get id = some actor) :
      CallMove t (.sending k data id) .send
        (.returned k data (.ok ()) (some (.tunnel actor.routeKey data))) t.tunnels
  | closed {k : RouteKey} {data : List UInt8} {id : Nat} :
      CallMove t (.sending k data id) .send (noTunnel k data)
        (t.tunnels.removeIf k fun a => a.id = id)
  | fallback {k : RouteKey} {data : List UInt8} {answer result : IoResult Unit}
      {handed : Option Handed} (sent : t.pool.sendTo answer data k.peerAddr = (result, handed)) :
      CallMove t (.falling k data) (.fallback answer) (.returned k data result handed) t.tunnels

/-- A call takes no other steps. -/
theorem CallMove.of_stepCall {step : SendStep} {call call' : SendCall}
    {tunnels : DashMap RouteKey TunnelActor}
    (h : t.stepCall call step = some (call', tunnels)) : CallMove t call step call' tunnels := by
  simp only [stepCall] at h
  split at h
  next =>
    split at h
    next actor => cases h; exact .found actor
    next => cases h; exact .missing
  next =>
    split at h
    next => cases h
    next actor =>
      split at h
      next => cases h; exact .closed
      next => cases h; exact .taken actor
  next => cases h; exact .fallback rfl
  next => cases h

theorem noTunnel_ne_sending {k k' : RouteKey} {data data' : List UInt8} {id : Nat} :
    noTunnel k data ≠ .sending k' data' id := by
  simp only [noTunnel]
  split <;> (intro h; cases h)

/-- The map only loses entries. -/
theorem CallMove.get_tunnels {step : SendStep} {call call' : SendCall}
    {tunnels : DashMap RouteKey TunnelActor} (h : CallMove t call step call' tunnels)
    {k : RouteKey} {actor : TunnelActor} (hget : tunnels.get k = some actor) :
    t.tunnels.get k = some actor := by
  cases h with
  | closed => exact get_of_removeIf hget
  | _ => exact hget

/-- A call that starts to send has looked its actor up. -/
theorem CallMove.actorOf_sending {step : SendStep} {call call' : SendCall}
    {tunnels : DashMap RouteKey TunnelActor} (h : CallMove t call step call' tunnels)
    (hkeyed : t.Keyed) {k : RouteKey} {data : List UInt8} {id : Nat}
    (hsending : call' = .sending k data id) : t.ActorOf id k := by
  cases h with
  | found actor => cases hsending; exact hkeyed.tunnels actor
  | missing => exact absurd hsending noTunnel_ne_sending
  | taken => cases hsending
  | closed => exact absurd hsending noTunnel_ne_sending
  | fallback => cases hsending

/-- The moves of the layer. -/
inductive Move (t : CoreTransportLayer) : SendEvent → CoreTransportLayer → Prop where
  | accepted {k : RouteKey} : Move t (.accept k) (t.startTunnelActor k)
  /-- An actor gets to its next stage, and may leave the map. -/
  | staged {e : SendEvent} {id : Nat} {k : RouteKey} {stage : ActorStage}
      {tunnels : DashMap RouteKey TunnelActor} (outside : e.Outside)
      (actor : t.ActorOf id k)
      (lost : ∀ {k' a}, tunnels.get k' = some a → t.tunnels.get k' = some a) :
      Move t e { t with tunnels := tunnels, actors := t.actors.insert id ⟨k, stage⟩ }
  /-- The assistant sockets change. -/
  | assisted {e : SendEvent} {pool : SocketPool} (outside : e.Outside) :
      Move t e { t with pool := pool }
  | called {k : RouteKey} {data : List UInt8} :
      Move t (.call k data) { t with calls := t.calls ++ [.started k data] }
  | advanced {index : Nat} {step : SendStep} {call call' : SendCall}
      {tunnels : DashMap RouteKey TunnelActor} (running : t.calls[index]? = some call)
      (move : CallMove t call step call' tunnels) :
      Move t (.advance index step) { t with
        calls := t.calls.set index call'
        tunnels := tunnels }

/-- The layer makes no other moves. -/
theorem Move.of_step (h : step t e = some t') : Move t e t' := by
  cases e with
  | accept k => cases h; exact .accepted
  | finish id =>
      simp only [step] at h
      split at h
      next hget =>
        cases h
        exact .staged (fun _ _ heq => by cases heq) ⟨_, hget⟩ get_of_removeIf
      next => cases h
  | drop id =>
      simp only [step] at h
      split at h
      next hget =>
        cases h
        exact .staged (fun _ _ heq => by cases heq) ⟨_, hget⟩ fun hget => hget
      next => cases h
  | addAssistantUdp socket => cases h; exact .assisted fun _ _ heq => by cases heq
  | cleanAssistantUdp => cases h; exact .assisted fun _ _ heq => by cases heq
  | call k data => cases h; exact .called
  | advance index step =>
      simp only [CoreTransportLayer.step] at h
      split at h
      next => cases h
      next running =>
        obtain ⟨⟨call', tunnels⟩, hran, rfl⟩ := Option.map_eq_some_iff.mp h
        exact .advanced running (.of_stepCall hran)

theorem Keyed.step (h : t.Keyed) (hstep : CoreTransportLayer.step t e = some t') : t'.Keyed := by
  cases Move.of_step hstep with
  | accepted => exact h.startTunnelActor _
  | staged outside actor lost => exact h.of_same (actorOf_insert actor _) rfl lost h.sending
  | assisted => exact h.of_same Iff.rfl rfl (fun hget => hget) h.sending
  | called =>
      refine h.of_same Iff.rfl rfl (fun hget => hget) ?_
      intro k' data' id hmem
      rcases List.mem_append.mp hmem with hold | hnew
      · exact h.sending hold
      · cases List.mem_singleton.mp hnew
  | advanced running move =>
      refine h.of_same Iff.rfl rfl move.get_tunnels ?_
      intro k data id hsending
      rcases List.mem_or_eq_of_mem_set hsending with hold | heq
      · exact h.sending hold
      · exact move.actorOf_sending h heq.symm

theorem keyed_run {pool : SocketPool} {es : List SendEvent}
    (h : Transition.run CoreTransportLayer.step (new pool) es = some t) : t.Keyed :=
  Transition.run_invariant (I := Keyed) (fun _ _ _ hstep ht => ht.step hstep) h (keyed_new pool)

/-! ## The local side of what is sent -/

/-- A fallback that the socket accepts leaves from the local address of the key: the main
socket for the family of the peer is bound to it. -/
def FallsBackPinned (t : CoreTransportLayer) : SendCall → SendStep → Prop
  | .falling k _, .fallback (.ok ()) =>
      ∀ socket ∈ t.pool.mainFor k.peerAddr, socket.localAddr = k.localAddr
  | _, _ => True

instance (t : CoreTransportLayer) (call : SendCall) (step : SendStep) :
    Decidable (t.FallsBackPinned call step) :=
  match call, step with
  | .falling k _, .fallback (.ok ()) =>
      inferInstanceAs (Decidable (∀ socket ∈ t.pool.mainFor k.peerAddr, _ = _))
  | .falling .., .fallback (.error _) => isTrue trivial
  | .falling .., .lookup => isTrue trivial
  | .falling .., .send => isTrue trivial
  | .started .., _ => isTrue trivial
  | .sending .., _ => isTrue trivial
  | .returned .., _ => isTrue trivial

/-- The event is no fallback from the wrong socket. -/
def KeepsLocal (t : CoreTransportLayer) : SendEvent → Prop
  | .advance index step => ∀ call ∈ t.calls[index]?, t.FallsBackPinned call step
  | _ => True

instance (t : CoreTransportLayer) (e : SendEvent) : Decidable (t.KeepsLocal e) :=
  match e with
  | .advance index step =>
      inferInstanceAs (Decidable (∀ call ∈ t.calls[index]?, t.FallsBackPinned call step))
  | .accept _ | .finish _ | .drop _ | .addAssistantUdp _ | .cleanAssistantUdp | .call .. =>
      isTrue trivial

/-- All calls that returned are pinned. -/
def CallsPinned (t : CoreTransportLayer) : Prop := ∀ call ∈ t.calls, call.Pinned

theorem pinned_noTunnel (k : RouteKey) (data : List UInt8) : (noTunnel k data).Pinned := by
  simp only [noTunnel]
  split <;> trivial

/-- A step of a call leaves it pinned exactly if it is no fallback from the wrong socket. -/
theorem pinned_iff_fallsBackPinned (hkeyed : t.Keyed) {step : SendStep} {call call' : SendCall}
    {tunnels : DashMap RouteKey TunnelActor} (hmem : call ∈ t.calls)
    (h : CallMove t call step call' tunnels) : call'.Pinned ↔ t.FallsBackPinned call step := by
  cases h with
  | found => exact Iff.rfl
  | missing => exact iff_of_true (pinned_noTunnel _ _) trivial
  | @taken k data id actor hget =>
      obtain ⟨stage, hactor⟩ := hkeyed.sending hmem
      rw [hget] at hactor
      cases hactor
      exact iff_of_true (Or.inl rfl) trivial
  | closed => exact iff_of_true (pinned_noTunnel _ _) trivial
  | @fallback k data answer result handed sent =>
      cases result with
      | error e =>
          refine iff_of_true trivial ?_
          cases answer with
          | error _ => trivial
          | ok _ =>
              -- A socket of the family would have sent the data.
              intro socket hmain
              have hsent : t.pool.sendTo (.ok ()) data k.peerAddr = (.ok (), some _) :=
                SocketPool.sendTo_ok_iff.mpr ⟨rfl, socket, hmain, rfl⟩
              cases sent.symm.trans hsent
      | ok _ =>
          obtain ⟨rfl, socket, hmain, rfl⟩ := SocketPool.sendTo_ok_iff.mp sent
          simp [SendCall.Pinned, FallsBackPinned, hmain]

theorem keepsLocal_of_outside (h : e.Outside) : t.KeepsLocal e := by
  cases e with
  | advance index step => exact absurd rfl (h index step)
  | _ => trivial

/-- A step keeps the calls pinned exactly if it is no fallback from the wrong socket. -/
theorem callsPinned_step (hkeyed : t.Keyed) (h : t.CallsPinned)
    (hstep : step t e = some t') : t'.CallsPinned ↔ t.KeepsLocal e := by
  cases Move.of_step hstep with
  | accepted => exact iff_of_true h trivial
  | staged outside => exact iff_of_true h (keepsLocal_of_outside outside)
  | assisted outside => exact iff_of_true h (keepsLocal_of_outside outside)
  | called =>
      refine iff_of_true ?_ trivial
      intro call hcall
      rcases List.mem_append.mp hcall with hold | hnew
      · exact h call hold
      · cases List.mem_singleton.mp hnew
        trivial
  | @advanced index step call call' tunnels running move =>
      have hindex := (List.getElem?_eq_some_iff.mp running).1
      have hpinned := pinned_iff_fallsBackPinned hkeyed (List.mem_of_getElem? running) move
      simp only [KeepsLocal, running, Option.mem_def, Option.some.injEq, forall_eq', ← hpinned]
      constructor
      · intro hall
        exact hall call' (List.mem_set hindex call')
      · intro hcall' call'' hmem
        rcases List.mem_or_eq_of_mem_set hmem with hold | rfl
        · exact h call'' hold
        · exact hcall'

/-- In every run all calls that returned `Ok` handed their data to a tunnel with their key or
sent it from the local address of the key, exactly if every fallback of the run that
the socket accepts has its main socket there. -/
theorem pinned_iff (pool : SocketPool) {es : List SendEvent} {t : CoreTransportLayer}
    (hrun : Transition.run step (new pool) es = some t) :
    (∀ pre m, pre <+: es → Transition.run step (new pool) pre = some m → m.CallsPinned) ↔
      Transition.Along step KeepsLocal (new pool) es := by
  refine Transition.invariant_iff_along (I := CallsPinned) hrun ?_ ?_
  · intro call hcall
    cases hcall
  · intro pre m e m' hm hstep h
    exact callsPinned_step (keyed_run hm) h hstep

/-- A pool with an assistant socket on port 6000. -/
def assistedPool : SocketPool :=
  ⟨⟨.v4 ⟨0, 0, 0, 0⟩ 5000⟩, none, [⟨.v4 ⟨0, 0, 0, 0⟩ 6000⟩]⟩

/-- A route of the assistant socket. -/
def assistedKey : RouteKey := ⟨.udp, .v4 ⟨0, 0, 0, 0⟩ 6000, .v4 ⟨10, 0, 0, 2⟩ 4000⟩

/-- A packet over the route while its tunnel lives. -/
def liveSend : List SendEvent :=
  [.accept assistedKey, .call assistedKey [1], .advance 0 .lookup, .advance 0 .send]

theorem pinned_iff_live :
    ∃ t, Transition.run step (new assistedPool) liveSend = some t ∧
      t.calls = [.returned assistedKey [1] (.ok ()) (some (.tunnel assistedKey [1]))] ∧
      t.CallsPinned := by
  refine ⟨_, rfl, rfl, ?_⟩
  exact (pinned_iff assistedPool rfl).mpr (by decide) liveSend _ (List.prefix_refl _) rfl

/-- The tunnel was idle and its actor ended, then a packet is sent over the route. -/
def lateSend : List SendEvent :=
  [.accept assistedKey, .finish 1, .drop 1, .call assistedKey [1], .advance 0 .lookup,
    .advance 0 (.fallback (.ok ()))]

/-- The packet leaves from the main socket. -/
theorem late_send_unpinned :
    ¬ ∀ (pool : SocketPool) (es : List SendEvent) (t : CoreTransportLayer),
      Transition.run step (new pool) es = some t → t.CallsPinned := by
  intro h
  rcases h assistedPool lateSend _ rfl _ (.head _) with htunnel | hsocket
  · cases htunnel
  · exact absurd hsocket (by decide)

end CoreTransportLayer

end RustP2p
