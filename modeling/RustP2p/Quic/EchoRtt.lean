import RustP2p.Core.RouteAdds
import RustP2p.Quic.Node

/-!
# Round trips and echoes

A node sends an EchoRequest from the heartbeat loop and from the probe of a route
that was just confirmed.  The payload is the time of the send, and `pending_echo`
keeps it for the peer, so that stale echoes can be discarded.

The EchoReply brings the eight bytes back.  Its branch computes the elapsed time
from them and writes it to the route the reply came on.  It discards what is
older than a minute, and it does not look at `pending_echo`.  So a peer that has
a direct route can set its round trip to any value below a minute, with a reply
to nothing (`HeedsEcho`).

`newRtt_echoReply` is what one reply does.  `echo_rtt_iff` says in which runs all
round trips come from the node's own echoes.
-/

namespace RustP2p

open BigEndian

namespace ProtocolLayer

variable {c : Codec} {env : Env} {l : ProtocolLayer} {data : List UInt8} {packet : Packet}
  {key : RouteKey} {p : PeerId} {k : RouteKey} {rtt : UInt32}

/-! ## Round trips of a layer -/

/-- The peer has a route with this key and round trip. -/
def HasRtt (l : ProtocolLayer) (p : PeerId) (k : RouteKey) (rtt : UInt32) : Prop :=
  RouteTable.ListedRtt (l.transport.routes.timedRoutes p) k rtt

/-- The route has this round trip in `l'`, and another one in `l`. -/
def NewRtt (l l' : ProtocolLayer) (p : PeerId) (k : RouteKey) (rtt : UInt32) : Prop :=
  l'.HasRtt p k rtt ∧ ¬ l.HasRtt p k rtt

theorem hasRtt_arrive : (l.arrive env packet key).2.HasRtt p k rtt ↔ l.HasRtt p k rtt := by
  have hroutes : (l.arrive env packet key).2.transport.routes =
      l.transport.routes.updateReadTime env.instant packet.src key := by
    simp only [arrive]
    split <;> exact Transport.upsertPeerInfo_routes _ _ _
  rw [HasRtt, hroutes, RouteTable.listedRtt_updateReadTime, HasRtt]

theorem hasRtt_forwardPacket : (l.forwardPacket env packet).state.HasRtt p k rtt ↔
    l.HasRtt p k rtt := by
  simp only [forwardPacket]
  split
  next => exact Iff.rfl
  next =>
    rw [Outcome.map_state, Transport.sendWire_state]
    simp only [HasRtt, Transport.routeFor, RouteTable.timedRoutes_getRouteById]

/-! ## One EchoReply -/

/-- The timestamp at the start of the payload. -/
def echoedTs (packet : Packet) : Nat := fromBeBytes (packet.payload.take 8)

/-- The elapsed time that the EchoReply branch computes. -/
def elapsed (env : Env) (packet : Packet) : UInt32 :=
  UInt32.ofNat (env.nowMillis.toNat - echoedTs packet)

/-- The reply came directly over a route of its sender, its timestamp lies less than a
minute back, and the round trip of the route is another one so far. -/
structure HeedsEcho (l : ProtocolLayer) (env : Env) (packet : Packet) (key : RouteKey) : Prop where
  here : l.isLocal packet = true
  direct : packet.metric = 0
  stamped : 8 ≤ packet.payload.length
  past : echoedTs packet < env.nowMillis.toNat
  recent : env.nowMillis.toNat - echoedTs packet < 60000
  route : ∃ m, l.HasRoute packet.src key m
  new : ¬ l.HasRtt packet.src key (elapsed env packet)

/-- An EchoReply changes the round trip of the route it came on to the elapsed time, if it
is heeded, and no other round trip. -/
theorem newRtt_echoReply (hscreen : l.screen data = .ok (some packet))
    (type : packet.protocol = .ok .echoReply) :
    NewRtt l (handleTransportPacket c env l data key).layer p k rtt ↔
      HeedsEcho l env packet key ∧ p = packet.src ∧ k = key ∧ rtt = elapsed env packet := by
  rw [handleTransportPacket_of_screen hscreen]
  cases hlocal : l.isLocal packet with
  | false =>
      rw [handlePacket_forward hlocal]
      refine iff_of_false ?_ ?_
      · intro h
        exact h.2 (hasRtt_arrive.mp (hasRtt_forwardPacket.mp h.1))
      · intro h
        cases h.1.here.symm.trans hlocal
  | true =>
      rw [handlePacket_local hlocal type]
      have hroute : (l.arrive env packet key).2.transport.routes.Knows packet.src key ↔
          ∃ m, l.HasRoute packet.src key m :=
        exists_congr fun m => sameRoutes_arrive l env packet key packet.src key m
      simp only [dispatch, Handling.layer, Outcome.ok_state, onEchoReply]
      split
      next hstamped =>
        split
        next hpast =>
          constructor
          · intro h
            rcases RouteTable.listedRtt_of_updateRtt h.1 with hold | ⟨hknows, rfl, rfl, hrtt⟩
            · exact absurd (hasRtt_arrive.mp hold) h.2
            · have hnew := h.2
              rw [hrtt] at hnew
              exact ⟨⟨hlocal, hstamped.1, hstamped.2, hpast.1, hpast.2, hroute.mp hknows, hnew⟩,
                rfl, rfl, hrtt⟩
          · rintro ⟨hheeds, rfl, rfl, rfl⟩
            exact ⟨RouteTable.listedRtt_updateRtt _ (hroute.mpr hheeds.route), hheeds.new⟩
        next hpast =>
          refine iff_of_false (fun h => h.2 (hasRtt_arrive.mp h.1)) ?_
          intro h
          exact hpast ⟨h.1.past, h.1.recent⟩
      next hstamped =>
        refine iff_of_false (fun h => h.2 (hasRtt_arrive.mp h.1)) ?_
        intro h
        exact hstamped ⟨h.1.direct, h.1.stamped⟩

end ProtocolLayer

/-! ## Whole runs -/

namespace Node

open ProtocolLayer

variable {c : Codec} {n₀ n n' : Node} {es : List Event} {e : Event}

/-- A task of the run sent the peer an EchoRequest over the key, with the time of the send
as its timestamp. -/
def SentEcho (c : Codec) (n₀ : Node) (es : List Event) (p : PeerId) (k : RouteKey)
    (ts : UInt64) : Prop :=
  ∃ pre task env post m m' packet, es = pre ++ .task task env :: post ∧
    Transition.run (step c) n₀ pre = some m ∧ step c m (.task task env) = some m' ∧
    env.nowMillis = ts ∧
    Packet.build .echoRequest m.layer.peerId p m.layer.maxTtl (toBeBytes 8 ts.toNat) = .ok packet ∧
    m'.sent = m.sent ++ [.toRoute k packet.buf]

/-- The run sent the EchoRequest, and no later one took its place in `pending_echo`. -/
def OutstandingEcho (c : Codec) (n₀ : Node) (es : List Event) (n : Node) (p : PeerId)
    (k : RouteKey) (ts : UInt64) : Prop :=
  SentEcho c n₀ es p k ts ∧ n.layer.pendingEcho.get p = some ts

/-- The event is the arrival of this EchoReply. -/
def EchoReply (n : Node) (e : Event) (env : Env) (packet : Packet) (key : RouteKey) : Prop :=
  ∃ data, e = .packet env data key ∧ n.layer.screen data = .ok (some packet) ∧
    packet.protocol = .ok .echoReply

/-- If the event is an EchoReply, then each round trip it changes is that of a route with an
outstanding EchoRequest with the timestamp of the reply, and becomes the time since then. -/
def MeasuredByEcho (c : Codec) (n₀ : Node) (es : List Event) (n : Node) (e : Event) (n' : Node) :
    Prop :=
  ∀ env packet key, n.EchoReply e env packet key → ∀ p k rtt, NewRtt n.layer n'.layer p k rtt →
    ∃ ts, OutstandingEcho c n₀ es n p k ts ∧ ts.toNat = echoedTs packet ∧
      rtt = UInt32.ofNat (env.nowMillis.toNat - ts.toNat)

/-- If the event is an EchoReply that is heeded, then it carries the timestamp of an
outstanding EchoRequest to its sender over the key it came on. -/
def AnswersEcho (c : Codec) (n₀ : Node) (es : List Event) (n : Node) (e : Event) : Prop :=
  ∀ env packet key, n.EchoReply e env packet key → HeedsEcho n.layer env packet key →
    ∃ ts, OutstandingEcho c n₀ es n packet.src key ts ∧ ts.toNat = echoedTs packet

/-- One event meets the rule exactly if it answers an echo when it is heeded. -/
theorem measuredByEcho_iff (h : step c n e = some n') :
    MeasuredByEcho c n₀ es n e n' ↔ AnswersEcho c n₀ es n e := by
  have hnew {env : Env} {packet : Packet} {key : RouteKey} (hreply : n.EchoReply e env packet key)
      (p : PeerId) (k : RouteKey) (rtt : UInt32) : NewRtt n.layer n'.layer p k rtt ↔
        HeedsEcho n.layer env packet key ∧ p = packet.src ∧ k = key ∧
          rtt = elapsed env packet := by
    obtain ⟨data, rfl, hscreen, type⟩ := hreply
    cases Move.of_step h with
    | packet idle =>
        rw [handlePacket_layer]
        exact newRtt_echoReply hscreen type
  constructor
  · intro hmeasured env packet key hreply hheeds
    obtain ⟨ts, hecho, hts, -⟩ := hmeasured env packet key hreply packet.src key _
      ((hnew hreply _ _ _).mpr ⟨hheeds, rfl, rfl, rfl⟩)
    exact ⟨ts, hecho, hts⟩
  · intro hanswers env packet key hreply p k rtt hrtt
    obtain ⟨hheeds, rfl, rfl, rfl⟩ := (hnew hreply p k rtt).mp hrtt
    obtain ⟨ts, hecho, hts⟩ := hanswers env packet _ hreply hheeds
    exact ⟨ts, hecho, hts, by rw [elapsed, hts]⟩

/-- In a run every round trip that an EchoReply changes is measured by an outstanding echo of
the node itself, exactly if every EchoReply that is heeded answers one. -/
theorem echo_rtt_iff (c : Codec) (s : Startup) {es : List Event} {n : Node}
    (hrun : Transition.run (step c) s.node es = some n) :
    (∀ pre e post m m', es = pre ++ e :: post → Transition.run (step c) s.node pre = some m →
        step c m e = some m' → MeasuredByEcho c s.node pre m e m') ↔
      ∀ pre e post m, es = pre ++ e :: post → Transition.run (step c) s.node pre = some m →
        AnswersEcho c s.node pre m e := by
  constructor
  · rintro h pre e post m rfl hm
    obtain ⟨m', hstep⟩ := Transition.exists_step hrun hm
    exact (measuredByEcho_iff hstep).mp (h pre e post m m' rfl hm hstep)
  · intro h pre e post m m' heq hm hstep
    exact (measuredByEcho_iff hstep).mpr (h pre e post m heq hm)

/-- A HelloRequest of `b`, which gives `b` a direct route. -/
def introduction : Event :=
  .packet (Env.atMillis 1) [141, 3, 0, 3, 3, 0, 0, 0, 15, 0, 1, 0, 1, 98, 97] RouteTable.pathTwo

/-- An EchoReply of `b` with the timestamp 100. -/
def echoOfHundred : Packet where
  buf := [134, 3, 0, 3, 3, 0, 0, 0, 23, 0, 1, 0, 1, 98, 97, 0, 0, 0, 0, 0, 0, 0, 100]
  src := ⟨"b"⟩
  dest := ⟨"a"⟩
  payloadOffset := 15
  header_le := Packet.header_le_fifteen
  offset_le := by decide

/-- It arrives at 130. -/
def echoAnswer : Event := .packet (Env.atMillis 130) echoOfHundred.buf RouteTable.pathTwo

/-- The route is probed at 100, and `b` answers. -/
def probedRun : List Event := [introduction, .task (.probe 0) (Env.atMillis 100), echoAnswer]

theorem echo_rtt_iff_probed :
    ∃ n, Transition.run (step Codec.empty) Startup.nodeA.node probedRun = some n ∧
      n.layer.transport.routes.route ⟨"b"⟩ = [⟨RouteTable.pathTwo, 0, 30⟩] ∧
      ((∀ pre e post m m', probedRun = pre ++ e :: post →
          Transition.run (step Codec.empty) Startup.nodeA.node pre = some m →
          step Codec.empty m e = some m' →
          MeasuredByEcho Codec.empty Startup.nodeA.node pre m e m') ↔
        ∀ pre e post m, probedRun = pre ++ e :: post →
          Transition.run (step Codec.empty) Startup.nodeA.node pre = some m →
          AnswersEcho Codec.empty Startup.nodeA.node pre m e) := by
  obtain ⟨n, hn, hroute⟩ :
      ∃ n, Transition.run (step Codec.empty) Startup.nodeA.node probedRun = some n ∧
        n.layer.transport.routes.route ⟨"b"⟩ = [⟨RouteTable.pathTwo, 0, 30⟩] := by
    decide +kernel
  exact ⟨n, hn, hroute, echo_rtt_iff Codec.empty Startup.nodeA hn⟩

/-- Without a probe the EchoReply sets the round trip all the same. -/
theorem unsolicited_echo_measured :
    ¬ ∀ (c : Codec) (s : Startup) (es : List Event) (e : Event) (m m' : Node),
      Transition.run (step c) s.node es = some m → step c m e = some m' →
      MeasuredByEcho c s.node es m e m' := by
  intro h
  obtain ⟨m, hm, hpending, hscreen, hbefore, m', hm', hafter⟩ :
      ∃ m, Transition.run (step Codec.empty) Startup.nodeA.node [introduction] = some m ∧
        m.layer.pendingEcho.get ⟨"b"⟩ = none ∧
        m.layer.screen echoOfHundred.buf = .ok (some echoOfHundred) ∧
        m.layer.transport.routes.timedRoutes ⟨"b"⟩ = [(⟨RouteTable.pathTwo, 0, 9999⟩, 1)] ∧
        ∃ m' ∈ step Codec.empty m echoAnswer,
          m'.layer.transport.routes.timedRoutes ⟨"b"⟩ = [(⟨RouteTable.pathTwo, 0, 30⟩, 130)] := by
    decide +kernel
  have hnew : NewRtt m.layer m'.layer ⟨"b"⟩ RouteTable.pathTwo 30 := by
    simp only [NewRtt, HasRtt, RouteTable.ListedRtt, hbefore, hafter]
    decide
  obtain ⟨ts, hecho, -⟩ := h Codec.empty Startup.nodeA _ _ m m' hm hm' (Env.atMillis 130)
    echoOfHundred RouteTable.pathTwo ⟨_, rfl, hscreen, by decide⟩ _ _ _ hnew
  cases hpending.symm.trans hecho.2

end Node

end RustP2p
