import RustP2p.Lib.Transition
import RustP2p.Quic.HandlerSpec
import RustP2p.Quic.Tasks

/-!
# A running node

The protocol layer with its tasks, as a step function.  `step c n e` is the node
after the event `e`, and `none` when the event cannot happen.

* The dispatcher handles one packet at a time.  It waits where the source awaits
  a send into the bounded `hello` or `quic` channel.
* Any number of `add_bootstrap` calls run.  Each sends its HelloRequest,
  registers the pending key, and receives from the one `hello` channel until an
  item has its address, or until its time is up.  It makes two attempts.
* The other tasks (`Task`) take their steps in between.

The `hello` channel is a queue.  `inFlight` is its content, with the item the
dispatcher is about to send: a HelloReply appends to it (`helloItem`) and a
receiving call takes its head (`taken`), and nothing else touches it
(`inFlight_step`).
-/

namespace RustP2p

open ProtocolLayer

/-! ## The state -/

/-- The capacity of the `hello` channel. -/
def HELLO_CAPACITY : Nat := 128

/-- The capacity of the `quic` channel. -/
def QUIC_CAPACITY : Nat := 512

/-- An item of the `hello` channel: where a HelloReply came from and whom it
names. -/
abbrev HelloItem := SocketAddr × PeerId

/-- Where the task of `start_packet_dispatcher` stands. -/
inductive Dispatcher where
  /-- In `recv_wire`. -/
  | idle
  /-- In `hello_tx.send_async`. -/
  | sendingHello (item : HelloItem) (entries : List RouteEntry) (via : RouteKey)
  /-- In `quic_tx.send_async`. -/
  | sendingQuic (payload : TransportPayload)
  | stopped

/-- The item the dispatcher is about to send. -/
def Dispatcher.item : Dispatcher → Option HelloItem
  | sendingHello item _ _ => some item
  | _ => none

@[simp] theorem Dispatcher.item_idle : Dispatcher.idle.item = none := rfl
@[simp] theorem Dispatcher.item_stopped : Dispatcher.stopped.item = none := rfl
@[simp] theorem Dispatcher.item_sendingQuic (payload : TransportPayload) :
    (Dispatcher.sendingQuic payload).item = none := rfl
@[simp] theorem Dispatcher.item_sendingHello (item : HelloItem) (entries : List RouteEntry)
    (via : RouteKey) : (Dispatcher.sendingHello item entries via).item = some item := rfl

/-- Where a call of `add_bootstrap` stands. -/
inductive Phase where
  /-- About to send the HelloRequest. -/
  | sending
  /-- Sent, and the pending key not yet registered. -/
  | registering
  /-- In `hello_rx.recv_async`. -/
  | waiting
  /-- In the pause after a failed attempt. -/
  | sleeping (e : IoError)
  | returned (result : IoResult PeerId)
  /-- The caller dropped the future. -/
  | dropped
deriving DecidableEq, Repr

/-- A call of `add_bootstrap`. -/
structure Call where
  addr : SocketAddr
  /-- Failed attempts. -/
  failures : Nat
  phase : Phase
deriving DecidableEq, Repr

/-- The call has neither returned nor been dropped. -/
def Call.outstanding (call : Call) : Bool :=
  match call.phase with
  | .returned _ => false
  | .dropped => false
  | _ => true

/-- The running node. -/
structure Node where
  layer : ProtocolLayer
  loops : Loops
  dispatcher : Dispatcher
  helloQueue : List HelloItem
  quicQueue : List TransportPayload
  calls : List Call
  /-- Everything handed to the core transport so far. -/
  sent : List Effect

/-- The arguments of `TransportLayer::bind` and `ProtocolLayer::new`. -/
structure Startup where
  peerId : PeerId
  localAddr : SocketAddr
  rawLocalAddr : SocketAddr
  localTcpAddr : Option SocketAddr
  loadBalance : LoadBalance
  maxTtl : UInt8
  punchWhitelist : Option (List PeerId)
  natObservers : List PeerId
  natInfo : NatInfo

namespace Startup

/-- The layer `ProtocolLayer::new` makes. -/
def layer (s : Startup) : ProtocolLayer :=
  .new s.peerId (.bind s.peerId s.localAddr s.rawLocalAddr s.localTcpAddr s.loadBalance) s.maxTtl
    s.punchWhitelist s.natObservers s.natInfo

/-- The node when `ProtocolLayer::new` has started its tasks. -/
def node (s : Startup) : Node := ⟨s.layer, ⟨.waiting, [], []⟩, .idle, [], [], [], []⟩

/-- A node starts without routes. -/
theorem not_hasRoute (s : Startup) (p : PeerId) (k : RouteKey) (m : UInt8) :
    ¬ s.node.layer.HasRoute p k m := RouteTable.not_has_new s.loadBalance p k m

/-- The node `a` on a wildcard address, as its main socket reports it. -/
def nodeA : Startup where
  peerId := ⟨"a"⟩
  localAddr := .v4 ⟨10, 0, 0, 1⟩ 5000
  rawLocalAddr := .v4 ⟨0, 0, 0, 0⟩ 5000
  localTcpAddr := none
  loadBalance := .minHopLowestLatency
  maxTtl := 3
  punchWhitelist := none
  natObservers := []
  natInfo := .default

end Startup

/-! ## The events -/

/-- A step of a bootstrap call. -/
inductive CallStep where
  | hello (env : Env)
  | register
  | receive
  | timeout
  | wake
  | cancel

/-- What can happen at a node. -/
inductive Event where
  /-- The dispatcher receives bytes from the tunnel with this key. -/
  | packet (env : Env) (data : List UInt8) (routeKey : RouteKey)
  /-- The dispatcher's item enters the `hello` channel. -/
  | helloSent (env : Env)
  /-- The dispatcher's item enters the `quic` channel. -/
  | quicSent
  /-- The transport is gone. -/
  | transportClosed
  /-- `recv_quic_payload`. -/
  | quicReceived
  /-- A new call of `add_bootstrap`. -/
  | bootstrap (addr : SocketAddr)
  /-- A step of a call. -/
  | call (index : Nat) (step : CallStep)
  /-- A step of another task. -/
  | task (task : Task) (env : Env)

/-! ## The steps -/

namespace Node

/-- The top of the dispatcher's loop, with `closed` checked. -/
def nextDispatcher (l : ProtocolLayer) : Dispatcher := if l.closed then .stopped else .idle

/-- The dispatcher handles one packet, as far as it gets. -/
def handlePacket (c : Codec) (n : Node) (env : Env) (data : List UInt8) (routeKey : RouteKey) :
    Node :=
  match handleTransportPacket c env n.layer data routeKey with
  | .done outcome =>
      { n with
        layer := outcome.state
        dispatcher := nextDispatcher outcome.state
        sent := n.sent ++ outcome.effects }
  | .sendHello layer item entries via =>
      { n with layer := layer, dispatcher := .sendingHello item entries via }
  | .sendQuic layer payload => { n with layer := layer, dispatcher := .sendingQuic payload }

/-- The item enters the channel if there is room, and the entries are ingested. -/
def finishHello (n : Node) (env : Env) : Option Node :=
  match n.dispatcher with
  | .sendingHello item entries via =>
      if n.helloQueue.length < HELLO_CAPACITY then
        let layer := n.layer.ingestRouteEntries env entries via
        some { n with
          layer := layer
          dispatcher := nextDispatcher layer
          helloQueue := n.helloQueue ++ [item] }
      else none
  | _ => none

/-- The payload enters the channel if there is room. -/
def finishQuic (n : Node) : Option Node :=
  match n.dispatcher with
  | .sendingQuic payload =>
      if n.quicQueue.length < QUIC_CAPACITY then
        some { n with
          dispatcher := nextDispatcher n.layer
          quicQueue := n.quicQueue ++ [payload] }
      else none
  | _ => none

/-- The first half of `add_bootstrap_once`: the HelloRequest to the address. -/
def sendHello (l : ProtocolLayer) (env : Env) (addr : SocketAddr) : Outcome ProtocolLayer :=
  match Packet.build .helloRequest l.peerId .broadcast l.maxTtl [] with
  | .error e => .fail l e
  | .ok packet =>
      (l.transport.sendRawToAddr env packet.buf addr).map fun t => { l with transport := t }

/-- The key `add_bootstrap_once` registers, with the local address of the main
IPv4 socket whatever the family of the address. -/
def pendingKey (l : ProtocolLayer) (addr : SocketAddr) : RouteKey :=
  ⟨.udp, l.transport.rawLocalAddr, addr⟩

/-- The error of an attempt whose time is up. -/
def helloTimedOut : IoError := ⟨.timedOut, "bootstrap hello timed out"⟩

/-- One step of a call, with the layer, the queue and the effects after it. -/
def stepCall (l : ProtocolLayer) (queue : List HelloItem) (call : Call) :
    CallStep → Option (Call × ProtocolLayer × List HelloItem × List Effect)
  | .hello env =>
      match call.phase with
      | .sending =>
          let outcome := sendHello l env call.addr
          let phase := match outcome.result with
            | .ok () => .registering
            | .error e => .sleeping e
          some ({ call with phase := phase }, outcome.state, queue, outcome.effects)
      | _ => none
  | .register =>
      match call.phase with
      | .registering =>
          some ({ call with phase := .waiting }, l.insertPendingHello (pendingKey l call.addr),
            queue, [])
      | _ => none
  | .receive =>
      match call.phase, queue with
      | .waiting, item :: rest =>
          some (if item.1 = call.addr then { call with phase := .returned (.ok item.2) } else call,
            l, rest, [])
      | _, _ => none
  | .timeout =>
      match call.phase with
      | .waiting => some ({ call with phase := .sleeping helloTimedOut }, l, queue, [])
      | _ => none
  | .wake =>
      match call.phase with
      | .sleeping e =>
          -- The loop runs `0..2`.
          if call.failures = 0 then
            some ({ call with failures := 1, phase := .sending }, l, queue, [])
          else some ({ call with phase := .returned (.error e) }, l, queue, [])
      | _ => none
  | .cancel =>
      match call.phase with
      | .sending => some ({ call with phase := .dropped }, l, queue, [])
      | .waiting => some ({ call with phase := .dropped }, l, queue, [])
      | .sleeping _ => some ({ call with phase := .dropped }, l, queue, [])
      | _ => none

/-- The node after an event, if the event can happen. -/
def step (c : Codec) (n : Node) : Event → Option Node
  | .packet env data routeKey =>
      match n.dispatcher with
      | .idle => some (n.handlePacket c env data routeKey)
      | _ => none
  | .helloSent env => n.finishHello env
  | .quicSent => n.finishQuic
  | .transportClosed =>
      match n.dispatcher with
      | .idle => some { n with dispatcher := .stopped }
      | _ => none
  | .quicReceived =>
      match n.quicQueue with
      | [] => none
      | _ :: rest => some { n with quicQueue := rest }
  | .bootstrap addr => some { n with calls := n.calls ++ [⟨addr, 0, .sending⟩] }
  | .call index callStep =>
      match n.calls[index]? with
      | none => none
      | some call =>
          match stepCall n.layer n.helloQueue call callStep with
          | none => none
          | some (call, layer, queue, effects) =>
              some { n with
                calls := n.calls.set index call
                layer := layer
                helloQueue := queue
                sent := n.sent ++ effects }
  | .task task env =>
      match task.run c env n.layer n.loops with
      | none => none
      | some (outcome, loops) =>
          some { n with
            layer := outcome.state
            loops := loops
            sent := n.sent ++ outcome.effects }

/-! ## What a step does to the stores -/

/-- The routes an event may add. -/
inductive Introduced (c : Codec) (n : Node) : Event → PeerId → RouteKey → UInt8 → Prop where
  /-- A packet confirms a route under the key it arrived on. -/
  | packet {env : Env} {data : List UInt8} {routeKey : RouteKey} {packet : Packet} {p : PeerId}
      {m : UInt8} (admitted : n.layer.screen data = .ok (some packet))
      (isLocal : n.layer.isLocal packet = true)
      (confirmed : Confirmed c n.layer packet routeKey p m) :
      Introduced c n (.packet env data routeKey) p routeKey m
  /-- The entries of a HelloReply are ingested when its item is in the channel. -/
  | advertised {env : Env} {item : HelloItem} {entries : List RouteEntry} {via : RouteKey}
      {p : PeerId} {m : UInt8} (sending : n.dispatcher = .sendingHello item entries via)
      (entry : Advertised n.layer.peerId entries p m) : Introduced c n (.helloSent env) p via m

/-- The writes an event may cause. -/
inductive Stored (c : Codec) (n : Node) : Event → Write → Prop where
  | packet {env : Env} {data : List UInt8} {routeKey : RouteKey} {w : Write}
      (caused : Caused c n.layer data routeKey w) : Stored c n (.packet env data routeKey) w
  /-- The entries of a HelloReply are ingested when its item is in the channel. -/
  | advertised {env : Env} {item : HelloItem} {entries : List RouteEntry} {via : RouteKey}
      {entry : RouteEntry} (sending : n.dispatcher = .sendingHello item entries via)
      (mem : entry ∈ entries) (ingested : Ingested n.layer.peerId entry) :
      Stored c n (.helloSent env) (.confirm entry.peer via (saturatingAdd entry.metric 1))

theorem handlePacket_layer (c : Codec) (n : Node) (env : Env) (data : List UInt8) (k : RouteKey) :
    (n.handlePacket c env data k).layer =
      (handleTransportPacket c env n.layer data k).layer := by
  simp only [handlePacket]
  split <;> (next h => rw [h]; rfl)

theorem same_sendHello (l : ProtocolLayer) (env : Env) (addr : SocketAddr) :
    SameStores l (sendHello l env addr).state := by
  simp only [sendHello]
  split
  next => exact SameStores.refl l
  next =>
    rw [Outcome.map_state, Transport.sendRawToAddr_state]
    exact SameStores.refl l

/-- The moves of a call, with the phase each one needs. -/
inductive CallMove (l : ProtocolLayer) (queue : List HelloItem) (call : Call) :
    CallStep → Call → ProtocolLayer → List HelloItem → List Effect → Prop where
  | sent {env : Env} (phase : call.phase = .sending)
      (ok : (sendHello l env call.addr).result = .ok ()) :
      CallMove l queue call (.hello env) { call with phase := .registering }
        (sendHello l env call.addr).state queue (sendHello l env call.addr).effects
  | unsent {env : Env} {e : IoError} (phase : call.phase = .sending)
      (error : (sendHello l env call.addr).result = .error e) :
      CallMove l queue call (.hello env) { call with phase := .sleeping e }
        (sendHello l env call.addr).state queue (sendHello l env call.addr).effects
  | register (phase : call.phase = .registering) :
      CallMove l queue call .register { call with phase := .waiting }
        (l.insertPendingHello (pendingKey l call.addr)) queue []
  | received {item : HelloItem} {rest : List HelloItem} (phase : call.phase = .waiting)
      (head : queue = item :: rest) (mine : item.1 = call.addr) :
      CallMove l queue call .receive { call with phase := .returned (.ok item.2) } l rest []
  | discarded {item : HelloItem} {rest : List HelloItem} (phase : call.phase = .waiting)
      (head : queue = item :: rest) (other : item.1 ≠ call.addr) :
      CallMove l queue call .receive call l rest []
  | timeout (phase : call.phase = .waiting) :
      CallMove l queue call .timeout { call with phase := .sleeping helloTimedOut } l queue []
  | retry {e : IoError} (phase : call.phase = .sleeping e) (first : call.failures = 0) :
      CallMove l queue call .wake { call with failures := 1, phase := .sending } l queue []
  | failed {e : IoError} (phase : call.phase = .sleeping e) (second : call.failures ≠ 0) :
      CallMove l queue call .wake { call with phase := .returned (.error e) } l queue []
  | cancel (phase : call.phase = .sending ∨ call.phase = .waiting ∨ ∃ e, call.phase = .sleeping e) :
      CallMove l queue call .cancel { call with phase := .dropped } l queue []

/-- A call takes no other steps. -/
theorem CallMove.of_stepCall {l l' : ProtocolLayer} {queue queue' : List HelloItem}
    {call call' : Call} {effects : List Effect} {s : CallStep}
    (h : stepCall l queue call s = some (call', l', queue', effects)) :
    CallMove l queue call s call' l' queue' effects := by
  cases s with
  | hello env =>
      simp only [stepCall] at h
      split at h
      next phase =>
        cases hresult : (sendHello l env call.addr).result with
        | ok _ => rw [hresult] at h; cases h; exact .sent phase hresult
        | error e => rw [hresult] at h; cases h; exact .unsent phase hresult
      next => cases h
  | register =>
      simp only [stepCall] at h
      split at h <;> cases h
      next phase => exact .register phase
  | receive =>
      simp only [stepCall] at h
      split at h
      next item rest phase =>
        split at h
        next mine => cases h; exact .received phase rfl mine
        next other => cases h; exact .discarded phase rfl other
      next => cases h
  | timeout =>
      simp only [stepCall] at h
      split at h <;> cases h
      next phase => exact .timeout phase
  | wake =>
      simp only [stepCall] at h
      split at h
      next e phase =>
        split at h
        next first => cases h; exact .retry phase first
        next second => cases h; exact .failed phase second
      next => cases h
  | cancel =>
      simp only [stepCall] at h
      split at h
      next phase => cases h; exact .cancel (Or.inl phase)
      next phase => cases h; exact .cancel (Or.inr (Or.inl phase))
      next e phase => cases h; exact .cancel (Or.inr (Or.inr ⟨e, phase⟩))
      next => cases h

/-- A call leaves the stores alone. -/
theorem CallMove.same {l l' : ProtocolLayer} {queue queue' : List HelloItem} {call call' : Call}
    {effects : List Effect} {s : CallStep} (h : CallMove l queue call s call' l' queue' effects) :
    SameStores l l' := by
  cases h with
  | sent => exact same_sendHello l _ call.addr
  | unsent => exact same_sendHello l _ call.addr
  | register => exact same_insertPendingHello l _
  | received => exact SameStores.refl l
  | discarded => exact SameStores.refl l
  | timeout => exact SameStores.refl l
  | retry => exact SameStores.refl l
  | failed => exact SameStores.refl l
  | cancel => exact SameStores.refl l

/-- The moves of a node, with what each one needs. -/
inductive Move (c : Codec) (n : Node) : Event → Node → Prop where
  | packet {env : Env} {data : List UInt8} {routeKey : RouteKey} (idle : n.dispatcher = .idle) :
      Move c n (.packet env data routeKey) (n.handlePacket c env data routeKey)
  | helloSent {env : Env} {item : HelloItem} {entries : List RouteEntry} {via : RouteKey}
      (sending : n.dispatcher = .sendingHello item entries via)
      (room : n.helloQueue.length < HELLO_CAPACITY) :
      Move c n (.helloSent env) { n with
        layer := n.layer.ingestRouteEntries env entries via
        dispatcher := nextDispatcher (n.layer.ingestRouteEntries env entries via)
        helloQueue := n.helloQueue ++ [item] }
  | quicSent {payload : TransportPayload} (sending : n.dispatcher = .sendingQuic payload)
      (room : n.quicQueue.length < QUIC_CAPACITY) :
      Move c n .quicSent { n with
        dispatcher := nextDispatcher n.layer
        quicQueue := n.quicQueue ++ [payload] }
  | transportClosed (idle : n.dispatcher = .idle) :
      Move c n .transportClosed { n with dispatcher := .stopped }
  | quicReceived {payload : TransportPayload} {rest : List TransportPayload}
      (head : n.quicQueue = payload :: rest) : Move c n .quicReceived { n with quicQueue := rest }
  | bootstrap {addr : SocketAddr} :
      Move c n (.bootstrap addr) { n with calls := n.calls ++ [⟨addr, 0, .sending⟩] }
  | call {index : Nat} {s : CallStep} {call call' : Call} {layer : ProtocolLayer}
      {queue : List HelloItem} {effects : List Effect} (running : n.calls[index]? = some call)
      (move : CallMove n.layer n.helloQueue call s call' layer queue effects) :
      Move c n (.call index s) { n with
        calls := n.calls.set index call'
        layer := layer
        helloQueue := queue
        sent := n.sent ++ effects }
  | task {task : Task} {env : Env} {outcome : Outcome ProtocolLayer} {loops : Loops}
      (ran : task.run c env n.layer n.loops = some (outcome, loops)) :
      Move c n (.task task env) { n with
        layer := outcome.state
        loops := loops
        sent := n.sent ++ outcome.effects }

variable {c : Codec} {n n' : Node} {e : Event}

/-- A node takes no other steps. -/
theorem Move.of_step (h : step c n e = some n') : Move c n e n' := by
  cases e with
  | packet env data key =>
      simp only [step] at h
      split at h
      next idle => cases h; exact .packet idle
      next => cases h
  | helloSent env =>
      simp only [step, finishHello] at h
      split at h
      next sending =>
        split at h
        next room => cases h; exact .helloSent sending room
        next => cases h
      next => cases h
  | quicSent =>
      simp only [step, finishQuic] at h
      split at h
      next sending =>
        split at h
        next room => cases h; exact .quicSent sending room
        next => cases h
      next => cases h
  | transportClosed =>
      simp only [step] at h
      split at h
      next idle => cases h; exact .transportClosed idle
      next => cases h
  | quicReceived =>
      simp only [step] at h
      split at h
      next => cases h
      next head => cases h; exact .quicReceived head
  | bootstrap addr =>
      cases h
      exact .bootstrap
  | call index s =>
      simp only [step] at h
      split at h
      next => cases h
      next running =>
        split at h
        next => cases h
        next move => cases h; exact .call running (.of_stepCall move)
  | task task env =>
      simp only [step] at h
      split at h
      next => cases h
      next ran => cases h; exact .task ran

/-- An event writes nothing else to the stores. -/
theorem writes_step (h : step c n e = some n') : Writes (Stored c n e) n.layer n'.layer := by
  cases Move.of_step h with
  | packet idle =>
      rw [handlePacket_layer]
      exact writes_handleTransportPacket.mono fun _ => .packet
  | helloSent sending room =>
      refine writes_ingestRouteEntries n.layer _ _ _ ?_
      intro item hitem hingested
      exact .advertised sending hitem hingested
  | quicSent => exact .refl
  | transportClosed => exact .refl
  | quicReceived => exact .refl
  | bootstrap => exact .refl
  | call running move => exact .of_same move.same
  | task ran => exact .of_same (Task.same_run ran)

/-- Every route an event adds was introduced by it. -/
theorem adds_step (h : step c n e = some n') : Adds (Introduced c n e) n.layer n'.layer := by
  refine ((writes_step h).mono ?_).adds
  intro w hw
  cases hw with
  | packet caused => exact caused.meets fun _ _ _ => .packet
  | @advertised env dispatched entries via item sending mem ingested =>
      exact .advertised sending ⟨item, mem, rfl, ingested.1, ingested.2, rfl⟩

/-- The dispatcher comes to wait for the `hello` channel by handling a HelloReply,
and what it has to ingest afterwards are its entries. -/
theorem dispatcher_step {item : HelloItem} {entries : List RouteEntry} {via : RouteKey}
    (h : step c n e = some n') (hsending : n'.dispatcher = .sendingHello item entries via) :
    n.dispatcher = .sendingHello item entries via ∨ ∃ env data packet hello,
      e = .packet env data via ∧ n.layer.screen data = .ok (some packet) ∧
      n.layer.isLocal packet = true ∧ packet.protocol = .ok .helloReply ∧
      decodeHelloPayload c packet.payload = .ok hello ∧ entries = hello.peers := by
  have hnext (l : ProtocolLayer) : nextDispatcher l ≠ .sendingHello item entries via := by
    simp only [nextDispatcher]
    split <;> simp
  cases Move.of_step h with
  | @packet env data key idle =>
      simp only [handlePacket] at hsending
      split at hsending
      next => exact absurd hsending (hnext _)
      next hhandled =>
        cases hsending
        obtain ⟨rfl, packet, hello, hrest⟩ := handleTransportPacket_sendHello hhandled
        exact Or.inr ⟨env, data, packet, hello, rfl, hrest⟩
      next => cases hsending
  | helloSent => exact absurd hsending (hnext _)
  | quicSent => exact absurd hsending (hnext _)
  | transportClosed => cases hsending
  | quicReceived => exact Or.inl hsending
  | bootstrap => exact Or.inl hsending
  | call => exact Or.inl hsending
  | task => exact Or.inl hsending

/-! ## What a step does to the `hello` channel -/

@[simp] theorem nextDispatcher_item (l : ProtocolLayer) : (nextDispatcher l).item = none := by
  simp only [nextDispatcher]
  split <;> rfl

/-- The replies on their way to a bootstrap call, oldest first. -/
def inFlight (n : Node) : List HelloItem := n.helloQueue ++ n.dispatcher.item.toList

/-- The item of the HelloReply that the event handles. -/
def replied (c : Codec) (n : Node) : Event → Option HelloItem
  | .packet _ data routeKey => helloItem c n.layer data routeKey
  | _ => none

/-- The item a step of a call takes from the queue. -/
def takenBy (queue : List HelloItem) : CallStep → Option HelloItem
  | .receive => queue.head?
  | _ => none

/-- The item a call receives. -/
def taken (n : Node) : Event → Option HelloItem
  | .call _ s => takenBy n.helloQueue s
  | _ => none

theorem handlePacket_item (c : Codec) (n : Node) (env : Env) (data : List UInt8) (k : RouteKey) :
    (n.handlePacket c env data k).dispatcher.item = helloItem c n.layer data k ∧
      (n.handlePacket c env data k).helloQueue = n.helloQueue ∧
      (n.handlePacket c env data k).calls = n.calls := by
  rw [← handleTransportPacket_item c env]
  simp only [handlePacket]
  split
  next h => rw [h]; exact ⟨nextDispatcher_item _, rfl, rfl⟩
  next h => rw [h]; exact ⟨rfl, rfl, rfl⟩
  next h => rw [h]; exact ⟨rfl, rfl, rfl⟩

/-- Only a receive takes from the queue, and it takes the head. -/
theorem CallMove.queue_eq {l l' : ProtocolLayer} {queue queue' : List HelloItem}
    {call call' : Call} {effects : List Effect} {s : CallStep}
    (h : CallMove l queue call s call' l' queue' effects) :
    queue = (takenBy queue s).toList ++ queue' := by
  cases h with
  | received _ head => rw [head]; rfl
  | discarded _ head => rw [head]; rfl
  | _ => rfl

/-- The channel is a queue: a HelloReply goes in at the end, and a receiving
call takes the head. -/
theorem inFlight_step (h : step c n e = some n') :
    n.inFlight ++ (replied c n e).toList = (taken n e).toList ++ n'.inFlight := by
  cases Move.of_step h with
  | @packet env data key idle =>
      obtain ⟨hitem, hqueue, -⟩ := handlePacket_item c n env data key
      simp [inFlight, idle, hitem, hqueue, replied, taken]
  | helloSent sending => simp [inFlight, sending, replied, taken]
  | quicSent sending => simp [inFlight, sending, replied, taken]
  | transportClosed idle => simp [inFlight, idle, replied, taken]
  | quicReceived => simp [inFlight, replied, taken]
  | bootstrap => simp [inFlight, replied, taken]
  | call running move =>
      simp only [inFlight, replied, taken, Option.toList_none, List.append_nil]
      rw [← List.append_assoc, ← move.queue_eq]
  | task => simp [inFlight, replied, taken]

/-- The channel never holds more than its capacity. -/
theorem length_helloQueue_step (h : step c n e = some n')
    (hcap : n.helloQueue.length ≤ HELLO_CAPACITY) : n'.helloQueue.length ≤ HELLO_CAPACITY := by
  cases Move.of_step h with
  | @packet env data key idle =>
      rw [(handlePacket_item c n env data key).2.1]
      exact hcap
  | helloSent sending room =>
      rw [List.length_append, List.length_singleton]
      exact room
  | quicSent => exact hcap
  | transportClosed => exact hcap
  | quicReceived => exact hcap
  | bootstrap => exact hcap
  | call running move =>
      have hlen := congrArg List.length move.queue_eq
      rw [List.length_append] at hlen
      simp only
      omega
  | task => exact hcap

end Node

end RustP2p
